import DistributedCompilation.Runtime.Validate

/-!
# Distributed Compilation — containers and the machines they name

What an artifact says about its container and its machine, apart from how the
probes find it: three containers carry a machine field, each at an offset of its
own, and no byte string parses as two of them. The probes of `validate.cpp`
report exactly the container that parses; on top of that, when an artifact that
passes names the machine of its target, and when a kind of output can pass.
-/

namespace DistributedCompilation

-- ---------------------------------------------------------------------------
-- Containers
-- ---------------------------------------------------------------------------

/-- The containers that embed a machine field. -/
inductive Container | pe | elf | coff
deriving DecidableEq

/-- The machine field of a 32-bit x86 object. -/
def coffMachineX86 : Nat := 0x14C

/-- The machines a COFF object is recognised by. -/
def coffMachines : List Nat := [kCoffMachineAmd64, kCoffMachineArm64, coffMachineX86, 0x1C0, 0x1C4, 0xAA64]

namespace Container

/-- Whether the bytes parse as the container. -/
def Parses (bytes : Bytes) : Container → Prop
  | .pe => hasPrefix bytes (txt "MZ") = true ∧ 0x40 ≤ bytes.length ∧
      readLe32 bytes 0x3C + 24 ≤ bytes.length ∧
      (bytes.drop (readLe32 bytes 0x3C)).take 4 = [80, 69, 0, 0]
  | .elf => hasPrefix bytes [0x7f, 69, 76, 70] = true ∧ 20 ≤ bytes.length
  | .coff => 20 ≤ bytes.length ∧ readLe16 bytes 0 ∈ coffMachines ∧ 0 < readLe16 bytes 2 ∧
      readLe16 bytes 2 ≤ 4096 ∧ readLe16 bytes 16 = 0

instance (bytes : Bytes) (container : Container) : Decidable (Parses bytes container) := by
  cases container <;> unfold Parses <;> infer_instance

/-- Where the container keeps its machine field. -/
def machineOffset (bytes : Bytes) : Container → Nat
  | .pe => readLe32 bytes 0x3C + 4
  | .elf => 18
  | .coff => 0

def machine (bytes : Bytes) (container : Container) : Nat := readLe16 bytes (container.machineOffset bytes)

/-- What is read as the machine field: the offset in an image is added up in 32 bits. -/
def found (bytes : Bytes) : Container → Nat
  | .pe => readLe16 bytes ((readLe32 bytes 0x3C + 4) % 2 ^ 32)
  | .elf => machine bytes .elf
  | .coff => machine bytes .coff

/-- The machine field of an architecture. -/
def machineOf : Container → ArchKind → Option Nat
  | .pe, .x86_64 | .coff, .x86_64 => some kCoffMachineAmd64
  | .pe, .aarch64 | .coff, .aarch64 => some kCoffMachineArm64
  | .coff, .x86 => some coffMachineX86
  | .elf, .x86_64 => some kElfMachineX8664
  | .elf, .aarch64 => some kElfMachineAarch64
  | _, _ => none

end Container

/-- A prefix fixes the first machine word. -/
theorem readLe16_of_hasPrefix {bytes rest : Bytes} {a b : UInt8} (h : hasPrefix bytes (a :: b :: rest) = true) :
    readLe16 bytes 0 = a.toNat + 256 * b.toNat := by
  unfold hasPrefix at h
  obtain ⟨tail, rfl⟩ := List.isPrefixOf_iff_prefix.mp h
  rfl

theorem first_word_of_pe {bytes : Bytes} (h : Container.Parses bytes .pe) : readLe16 bytes 0 = 0x5A4D :=
  @readLe16_of_hasPrefix bytes [] _ _ h.1

theorem first_word_of_elf {bytes : Bytes} (h : Container.Parses bytes .elf) : readLe16 bytes 0 = 0x457F :=
  readLe16_of_hasPrefix h.1

theorem first_word_of_coff {bytes : Bytes} (h : Container.Parses bytes .coff) :
    readLe16 bytes 0 ≠ 0x5A4D ∧ readLe16 bytes 0 ≠ 0x457F := by
  have hmem := h.2.1
  have hall : ∀ n ∈ coffMachines, n ≠ 0x5A4D ∧ n ≠ 0x457F := by decide
  exact hall _ hmem

/-- Bytes parse as one container at most: the first word tells which. -/
theorem Container.Parses.unique {bytes : Bytes} {c c' : Container} (h : Container.Parses bytes c)
    (h' : Container.Parses bytes c') : c = c' := by
  cases c <;> cases c' <;> first | rfl | exfalso
  · exact absurd ((first_word_of_pe h).symm.trans (first_word_of_elf h')) (by decide)
  · exact (first_word_of_coff h').1 (first_word_of_pe h)
  · exact absurd ((first_word_of_pe h').symm.trans (first_word_of_elf h)) (by decide)
  · exact (first_word_of_coff h').2 (first_word_of_elf h)
  · exact (first_word_of_coff h).1 (first_word_of_pe h')
  · exact (first_word_of_coff h).2 (first_word_of_elf h')

-- ---------------------------------------------------------------------------
-- What the probes report
-- ---------------------------------------------------------------------------

/-- The probe reports the container and what it reads as its machine field. -/
structure FormatProbe.Reads (probe : FormatProbe) (bytes : Bytes) (container : Container) : Prop where
  recognized : probe.recognized = true
  machine : probe.machine = container.found bytes
  coff : probe.machineIsCoff = true ↔ container ≠ .elf
  elf : probe.machineIsElf = true ↔ container = .elf
  isPe : probe.isPe = true ↔ container = .pe
  isElf : probe.isElf = true ↔ container = .elf
  cubin : probe.isCubin = true ↔ container = .elf ∧ container.machine bytes = kElfMachineCuda

/-- The probe reports no machine field. -/
structure FormatProbe.Blank (probe : FormatProbe) : Prop where
  coff : probe.machineIsCoff = false
  elf : probe.machineIsElf = false
  isPe : probe.isPe = false
  isElf : probe.isElf = false
  cubin : probe.isCubin = false

theorem probePe_cases (bytes : Bytes) :
    Container.Parses bytes .pe ∧ (probePe bytes).Reads bytes .pe ∨
      ¬Container.Parses bytes .pe ∧ (probePe bytes).recognized = false := by
  unfold probePe
  split
  · next h =>
    refine .inr ⟨fun hparses => ?_, rfl⟩
    rw [Bool.or_eq_true, Bool.not_eq_true', decide_eq_true_iff] at h
    rcases h with h | h
    · rw [hparses.1] at h
      cases h
    · have hlong := hparses.2.1
      omega
  · next h =>
    rw [Bool.or_eq_true, Bool.not_eq_true', decide_eq_true_iff, not_or, Bool.not_eq_false] at h
    dsimp only
    split
    · next hshort =>
      rw [Bool.or_eq_true, decide_eq_true_iff, decide_eq_true_iff] at hshort
      refine .inr ⟨fun hparses => ?_, rfl⟩
      have hlong := hparses.2.2.1
      omega
    · next hlong =>
      rw [Bool.or_eq_true, decide_eq_true_iff, decide_eq_true_iff] at hlong
      split
      · next hsign => exact .inr ⟨fun hparses => hsign hparses.2.2.2, rfl⟩
      · next hsign =>
        refine .inl ⟨⟨h.1, by omega, by omega, not_not.mp hsign⟩, ?_⟩
        exact ⟨rfl, rfl, by simp, by simp, by simp, by simp, by simp⟩

theorem probeElf_cases (bytes : Bytes) :
    Container.Parses bytes .elf ∧ (probeElf bytes).Reads bytes .elf ∨
      ¬Container.Parses bytes .elf ∧ (probeElf bytes).recognized = false := by
  unfold probeElf
  split
  · next h =>
    refine .inr ⟨fun hparses => ?_, rfl⟩
    rw [Bool.or_eq_true, Bool.not_eq_true', decide_eq_true_iff] at h
    rcases h with h | h
    · rw [hparses.1] at h
      cases h
    · have hlong := hparses.2
      omega
  · next h =>
    rw [Bool.or_eq_true, Bool.not_eq_true', decide_eq_true_iff, not_or, Bool.not_eq_false] at h
    refine .inl ⟨⟨h.1, by omega⟩, ?_⟩
    refine ⟨rfl, rfl, by simp, by simp, by simp, by simp, ?_⟩
    show (readLe16 bytes 18 == kElfMachineCuda) = true ↔ _
    rw [beq_iff_eq]
    exact ⟨fun hcuda => ⟨rfl, hcuda⟩, fun hcuda => hcuda.2⟩

theorem probeCoffObject_cases (bytes : Bytes) :
    Container.Parses bytes .coff ∧ (probeCoffObject bytes).Reads bytes .coff ∨
      ¬Container.Parses bytes .coff ∧ (probeCoffObject bytes).recognized = false := by
  unfold probeCoffObject
  split
  · next h =>
    refine .inr ⟨fun hparses => ?_, rfl⟩
    have hlong := hparses.1
    omega
  · next hlong =>
    dsimp only
    split
    · next h => exact .inr ⟨fun hparses => h hparses.2.1, rfl⟩
    · next hmachine =>
      split
      · next h =>
        refine .inr ⟨fun hparses => ?_, rfl⟩
        have hpos := hparses.2.2.1
        have hbound := hparses.2.2.2.1
        omega
      · next hsections =>
        split
        · next h => exact .inr ⟨fun hparses => h hparses.2.2.2.2, rfl⟩
        · next hheader =>
          refine .inl ⟨⟨by omega, not_not.mp hmachine, by omega, by omega, by omega⟩, ?_⟩
          exact ⟨rfl, rfl, by simp, by simp, by simp, by simp, by simp⟩

theorem probePtx_blank (bytes : Bytes) : (probePtx bytes).Blank := by
  unfold probePtx
  split
  · exact ⟨rfl, rfl, rfl, rfl, rfl⟩
  · dsimp only
    split <;> exact ⟨rfl, rfl, rfl, rfl, rfl⟩

/-- The probes report the container the bytes parse as; what parses as none is
left to the search for text. -/
theorem probeFormat_cases (bytes : Bytes) :
    (∃ c, Container.Parses bytes c ∧ (probeFormat bytes).Reads bytes c) ∨
      (∀ c, ¬Container.Parses bytes c) ∧ (probeFormat bytes).Blank ∧
        (probeFormat bytes).recognized = (!bytes.isEmpty && (probePtx bytes).recognized) := by
  unfold probeFormat
  split
  · next hempty =>
    have hnil : bytes = [] := List.isEmpty_iff.mp hempty
    subst hnil
    exact .inr ⟨fun c => by cases c <;> decide, ⟨rfl, rfl, rfl, rfl, rfl⟩, rfl⟩
  · next hempty =>
    rcases probePe_cases bytes with ⟨hparses, hreads⟩ | ⟨hpe, hblank⟩
    · rw [if_pos hreads.recognized]
      exact .inl ⟨.pe, hparses, hreads⟩
    · rw [if_neg (by rw [hblank]; exact Bool.false_ne_true)]
      rcases probeElf_cases bytes with ⟨hparses, hreads⟩ | ⟨helf, hblank⟩
      · rw [if_pos hreads.recognized]
        exact .inl ⟨.elf, hparses, hreads⟩
      · rw [if_neg (by rw [hblank]; exact Bool.false_ne_true)]
        rcases probeCoffObject_cases bytes with ⟨hparses, hreads⟩ | ⟨hcoff, hblank⟩
        · rw [if_pos hreads.recognized]
          exact .inl ⟨.coff, hparses, hreads⟩
        · rw [if_neg (by rw [hblank]; exact Bool.false_ne_true)]
          refine .inr ⟨fun c => ?_, probePtx_blank bytes, ?_⟩
          · cases c
            · exact hpe
            · exact helf
            · exact hcoff
          · rw [Bool.eq_false_iff.mpr hempty]
            rfl

theorem reads_of_parses {bytes : Bytes} {c : Container} (h : Container.Parses bytes c) :
    (probeFormat bytes).Reads bytes c := by
  rcases probeFormat_cases bytes with ⟨c', hparses, hreads⟩ | ⟨hnone, -, -⟩
  · rw [h.unique hparses]
    exact hreads
  · exact absurd h (hnone c)

-- ---------------------------------------------------------------------------
-- The checks under the default requirements
-- ---------------------------------------------------------------------------

theorem passOrFail_outcome (check : String) (ok : Bool) (passed failed : Bytes) :
    (passOrFail check ok passed failed).outcome = .pass ↔ ok = true := by
  unfold passOrFail
  cases ok
  · exact ⟨fun h => (nomatch h), fun h => (nomatch h)⟩
  · exact ⟨fun _ => rfl, fun _ => rfl⟩

/-- A report passes when every check does. -/
theorem aggregate_eq_pass_iff (checks : List ValidationCheck) :
    aggregate checks = .pass ↔ ∀ check ∈ checks, check.outcome = .pass := by
  unfold aggregate
  constructor
  · intro h check hcheck
    split at h
    · cases h
    · next hfail =>
      split at h
      · cases h
      · next hunknown =>
        rw [List.any_eq_true, not_exists] at hfail hunknown
        cases houtcome : check.outcome with
        | pass => rfl
        | fail => exact absurd ⟨hcheck, by rw [houtcome]; rfl⟩ (hfail check)
        | unknown => exact absurd ⟨hcheck, by rw [houtcome]; rfl⟩ (hunknown check)
  · intro h
    have hnone (outcome : ValidationOutcome) (hne : outcome ≠ .pass) :
        checks.any (·.outcome == outcome) = false := by
      rw [List.any_eq_false]
      intro check hcheck heq
      rw [beq_iff_eq, h check hcheck] at heq
      exact hne heq.symm
    rw [if_neg (by rw [hnone .fail (by decide)]; exact Bool.false_ne_true),
      if_neg (by rw [hnone .unknown (by decide)]; exact Bool.false_ne_true)]

/-- The declared digest is the digest of the bytes. -/
def DigestMatches [HashFunction] (bytes : Bytes) (expected : Digest256) : Prop :=
  expected.isZero = false ∧ sha256 bytes = expected

theorem digestCheck_outcome [HashFunction] (bytes : Bytes) (expected : Digest256) :
    (digestCheck bytes expected).outcome = .pass ↔ DigestMatches bytes expected := by
  unfold digestCheck DigestMatches
  dsimp only
  split
  · next hzero =>
    rw [passOrFail_outcome, hzero]
    exact ⟨fun h => (nomatch h), fun h => (nomatch h.1)⟩
  · next hzero =>
    rw [passOrFail_outcome, beq_iff_eq, Bool.eq_false_iff.mpr hzero]
    exact ⟨fun h => ⟨rfl, h⟩, fun h => h.2⟩

/-- What the default requirements ask for. -/
theorem validate_default_pass_iff [HashFunction] (bytes : Bytes) (kind : OutputKind) (target : TargetIdentity)
    (expected : Digest256) :
    (validateArtifactBytes bytes kind target {} expected).aggregate = .pass ↔
      bytes ≠ [] ∧ DigestMatches bytes expected ∧
        (formatCheck bytes kind target (probeFormat bytes)).outcome = .pass ∧
        (targetMetadataCheck kind target (probeFormat bytes)).outcome = .pass := by
  unfold validateArtifactBytes
  rw [aggregate_eq_pass_iff]
  have hchecks : List.flatten [[existenceCheck bytes], [digestCheck bytes expected],
      [formatCheck bytes kind target (probeFormat bytes)],
      [targetMetadataCheck kind target (probeFormat bytes)], []] =
      [existenceCheck bytes, digestCheck bytes expected,
        formatCheck bytes kind target (probeFormat bytes),
        targetMetadataCheck kind target (probeFormat bytes)] := rfl
  show (∀ check ∈ List.flatten [[existenceCheck bytes], [digestCheck bytes expected],
      [formatCheck bytes kind target (probeFormat bytes)],
      [targetMetadataCheck kind target (probeFormat bytes)], []], check.outcome = .pass) ↔ _
  rw [hchecks, List.forall_mem_cons, List.forall_mem_cons, List.forall_mem_cons, List.forall_mem_singleton,
    digestCheck_outcome, existenceCheck, passOrFail_outcome, Bool.not_eq_true', List.isEmpty_eq_false_iff]

/-- The metadata check of a binary kind: some container was recognised and its
machine is accepted. -/
theorem targetMetadata_pass_iff {kind : OutputKind} (binary : kind ≠ .assembly ∧ kind ≠ .preprocessedSource)
    (target : TargetIdentity) (probe : FormatProbe) :
    (targetMetadataCheck kind target probe).outcome = .pass ↔
      probe.recognized = true ∧ (machineMatchesTarget probe target).isOk = true := by
  unfold targetMetadataCheck
  rw [if_neg (not_or.mpr binary)]
  split
  · next hrecognized =>
    rw [hrecognized]
    cases hmatch : machineMatchesTarget probe target with
    | ok u => exact ⟨fun _ => ⟨rfl, rfl⟩, fun _ => rfl⟩
    | error detail => exact ⟨fun h => (nomatch h), fun h => (nomatch h.2)⟩
  · next hrecognized => exact ⟨fun h => (nomatch h), fun h => absurd h.1 hrecognized⟩

-- ---------------------------------------------------------------------------
-- The machine of an artifact
-- ---------------------------------------------------------------------------

/-- A machine field compared with the expected one, zero standing for none. -/
theorem isOk_compared {found expected : Nat} {unexpected different : Bytes} :
    (if expected = 0 then .error unexpected else if found ≠ expected then .error different
      else .ok () : Except Bytes Unit).isOk = true ↔ expected ≠ 0 ∧ found = expected := by
  by_cases hzero : expected = 0
  · rw [if_pos hzero]
    exact ⟨fun h => (nomatch h), fun h => absurd hzero h.1⟩
  · rw [if_neg hzero]
    by_cases hsame : found = expected
    · rw [if_neg (not_not.mpr hsame)]
      exact ⟨fun _ => ⟨hzero, hsame⟩, fun _ => rfl⟩
    · rw [if_pos hsame]
      exact ⟨fun h => (nomatch h), fun h => absurd h.2 hsame⟩

theorem expectedCoff_iff (arch : ArchKind) (found : Nat) :
    (expectedCoffMachine arch ≠ 0 ∧ found = expectedCoffMachine arch) ↔
      Container.machineOf .pe arch = some found := by
  cases arch <;> simp [expectedCoffMachine, Container.machineOf, kCoffMachineAmd64, kCoffMachineArm64, eq_comm]

theorem expectedElf_iff (arch : ArchKind) (found : Nat) :
    (expectedElfMachine arch ≠ 0 ∧ found = expectedElfMachine arch) ↔
      Container.machineOf .elf arch = some found := by
  cases arch <;> simp [expectedElfMachine, Container.machineOf, kElfMachineX8664, kElfMachineAarch64, eq_comm]

/-- An object names the machine an image would, or that of 32-bit x86. -/
theorem machineOf_coff_iff (arch : ArchKind) (found : Nat) :
    Container.machineOf .coff arch = some found ↔
      Container.machineOf .pe arch = some found ∨ arch = .x86 ∧ found = coffMachineX86 := by
  cases arch <;> simp [Container.machineOf, eq_comm]

/-- What `machine_matches_target` accepts, container by container. -/
theorem machineMatches_iff {probe : FormatProbe} {bytes : Bytes} {c : Container}
    (reads : probe.Reads bytes c) (target : TargetIdentity) :
    (machineMatchesTarget probe target).isOk = true ↔
      c.machineOf target.arch = some (c.found bytes) ∨
        c = .coff ∧ c.machine bytes = coffMachineX86 ∨ c = .elf ∧ c.machine bytes = kElfMachineCuda := by
  have hmachine := reads.machine
  unfold machineMatchesTarget
  cases c with
  | pe =>
    have hcoff : probe.machineIsCoff = true := reads.coff.mpr (by decide)
    have hpe : probe.isPe = true := reads.isPe.mpr rfl
    rw [hcoff, hpe, hmachine, if_pos (by rfl), isOk_compared, expectedCoff_iff]
    exact ⟨fun h => .inl h, fun h => h.resolve_right fun h => by
      rcases h with ⟨h, -⟩ | ⟨h, -⟩ <;> cases h⟩
  | coff =>
    have hcoff : probe.machineIsCoff = true := reads.coff.mpr (by decide)
    have hpe : probe.isPe = false := Bool.eq_false_iff.mpr fun h => nomatch reads.isPe.mp h
    have hfound : Container.found bytes .coff = Container.machine bytes .coff := rfl
    rw [hcoff, hpe, hmachine, hfound, if_neg (by decide), if_pos rfl, machineOf_coff_iff]
    by_cases hx86 : Container.machine bytes .coff = 0x14C
    · rw [if_pos hx86]
      exact ⟨fun _ => .inr (.inl ⟨rfl, hx86⟩), fun _ => rfl⟩
    · rw [if_neg hx86, isOk_compared, expectedCoff_iff]
      constructor
      · intro h
        exact .inl (.inl h)
      · intro h
        rcases h with (h | ⟨-, h⟩) | ⟨-, h⟩ | ⟨h, -⟩
        · exact h
        · exact absurd h hx86
        · exact absurd h hx86
        · cases h
  | elf =>
    have hcoff : probe.machineIsCoff = false := Bool.eq_false_iff.mpr fun h => reads.coff.mp h rfl
    have helf : probe.machineIsElf = true := reads.elf.mpr rfl
    have hfound : Container.found bytes .elf = Container.machine bytes .elf := rfl
    rw [hcoff, helf, hmachine, hfound, Bool.false_and, if_neg Bool.false_ne_true, if_neg Bool.false_ne_true, if_pos rfl]
    by_cases hcuda : Container.machine bytes .elf = kElfMachineCuda
    · rw [if_pos (reads.cubin.mpr ⟨rfl, hcuda⟩)]
      exact ⟨fun _ => .inr (.inr ⟨rfl, hcuda⟩), fun _ => rfl⟩
    · rw [if_neg fun h => hcuda (reads.cubin.mp h).2, isOk_compared, expectedElf_iff]
      constructor
      · intro h
        exact .inl h
      · intro h
        rcases h with h | ⟨h, -⟩ | ⟨-, h⟩
        · exact h
        · cases h
        · exact absurd h hcuda

-- ---------------------------------------------------------------------------
-- Artifacts that pass
-- ---------------------------------------------------------------------------

/-- The kinds of output that embed the machine they are made for. -/
def OutputKind.embedsMachine : OutputKind → Bool
  | .object | .executable | .dynamicLibrary | .cubin => true
  | _ => false

/-- The containers the format check lets through for such a kind. -/
def formatAccepts (kind : OutputKind) (target : TargetIdentity) (bytes : Bytes) (c : Container) : Prop :=
  match kind with
  | .object =>
    if target.objectFormat = .coff then c = .coff
    else if target.objectFormat = .elf then c = .elf ∧ c.machine bytes ≠ kElfMachineCuda
    else True
  | .cubin => c = .elf ∧ c.machine bytes = kElfMachineCuda
  | _ => if target.os = .windows then c = .pe else c = .elf ∧ c.machine bytes ≠ kElfMachineCuda

theorem hostElf_iff {probe : FormatProbe} {bytes : Bytes} {c : Container} (reads : probe.Reads bytes c) :
    (probe.isElf && !probe.isCubin) = true ↔ c = .elf ∧ c.machine bytes ≠ kElfMachineCuda := by
  rw [Bool.and_eq_true, Bool.not_eq_true', Bool.eq_false_iff, Ne, reads.isElf, reads.cubin]
  constructor
  · rintro ⟨helf, hcuda⟩
    exact ⟨helf, fun h => hcuda ⟨helf, h⟩⟩
  · rintro ⟨helf, hcuda⟩
    exact ⟨helf, fun h => hcuda h.2⟩

theorem formatCheck_pass_iff {kind : OutputKind} (embeds : kind.embedsMachine = true) {bytes : Bytes}
    {target : TargetIdentity} {probe : FormatProbe} {c : Container} (reads : probe.Reads bytes c) :
    (formatCheck bytes kind target probe).outcome = .pass ↔ formatAccepts kind target bytes c := by
  have himage : (if target.os = .windows then
      passOrFail "format" probe.isPe probe.description (txt "expected a PE image for a Windows target")
      else passOrFail "format" (probe.isElf && !probe.isCubin) probe.description
        (txt "expected an ELF image for the target OS")).outcome = .pass ↔
      (if target.os = .windows then c = .pe else c = .elf ∧ c.machine bytes ≠ kElfMachineCuda) := by
    split
    · rw [passOrFail_outcome, reads.isPe]
    · rw [passOrFail_outcome, hostElf_iff reads]
  unfold formatCheck formatAccepts
  cases kind with
  | executable => exact himage
  | dynamicLibrary => exact himage
  | cubin =>
    dsimp only
    rw [passOrFail_outcome, reads.cubin]
  | object =>
    dsimp only
    split
    · rw [passOrFail_outcome, Bool.and_eq_true, Bool.not_eq_true', Bool.eq_false_iff, Ne, reads.coff, reads.isPe]
      cases c <;> decide
    · split
      · rw [passOrFail_outcome, hostElf_iff reads]
      · rw [passOrFail_outcome, Bool.or_eq_true, reads.coff, reads.isElf]
        cases c <;> decide
  | staticLibrary => cases embeds
  | ptx => cases embeds
  | assembly => cases embeds
  | preprocessedSource => cases embeds

/-- What carries no machine field has no place where one is expected. -/
theorem formatCheck_of_blank {kind : OutputKind} (embeds : kind.embedsMachine = true) (bytes : Bytes)
    (target : TargetIdentity) {probe : FormatProbe} (blank : probe.Blank) :
    (formatCheck bytes kind target probe).outcome ≠ .pass := by
  unfold formatCheck
  cases kind with
  | executable =>
    dsimp only
    split
    all_goals
      rw [Ne, passOrFail_outcome]
      simp [blank.isPe, blank.isElf]
  | dynamicLibrary =>
    dsimp only
    split
    all_goals
      rw [Ne, passOrFail_outcome]
      simp [blank.isPe, blank.isElf]
  | cubin =>
    dsimp only
    rw [Ne, passOrFail_outcome]
    simp [blank.cubin]
  | object =>
    dsimp only
    split
    · rw [Ne, passOrFail_outcome]
      simp [blank.coff]
    · split
      all_goals
        rw [Ne, passOrFail_outcome]
        simp [blank.coff, blank.isElf]
  | staticLibrary => cases embeds
  | ptx => cases embeds
  | assembly => cases embeds
  | preprocessedSource => cases embeds

/-- An artifact passes when its container is let through and the machine in it is
accepted. -/
theorem passes_iff [HashFunction] {kind : OutputKind} (embeds : kind.embedsMachine = true) (bytes : Bytes)
    (target : TargetIdentity) (expected : Digest256) :
    (validateArtifactBytes bytes kind target {} expected).aggregate = .pass ↔
      DigestMatches bytes expected ∧ ∃ c, Container.Parses bytes c ∧ formatAccepts kind target bytes c ∧
        (c.machineOf target.arch = some (c.found bytes) ∨
          c = .coff ∧ c.machine bytes = coffMachineX86 ∨ c = .elf ∧ c.machine bytes = kElfMachineCuda) := by
  have hbinary : kind ≠ .assembly ∧ kind ≠ .preprocessedSource := by
    constructor <;> rintro rfl <;> cases embeds
  rw [validate_default_pass_iff, targetMetadata_pass_iff hbinary]
  rcases probeFormat_cases bytes with ⟨c, hparses, hreads⟩ | ⟨hnone, hblank, -⟩
  · have hbytes : bytes ≠ [] := by
      rintro rfl
      cases c <;> exact absurd hparses (by decide)
    rw [formatCheck_pass_iff embeds hreads, machineMatches_iff hreads, hreads.recognized]
    constructor
    · rintro ⟨-, hdigest, hformat, -, hmachine⟩
      exact ⟨hdigest, c, hparses, hformat, hmachine⟩
    · rintro ⟨hdigest, c', hparses', hformat, hmachine⟩
      obtain rfl := hparses.unique hparses'
      exact ⟨hbytes, hdigest, hformat, rfl, hmachine⟩
  · constructor
    · rintro ⟨-, -, hformat, -⟩
      exact absurd hformat (formatCheck_of_blank embeds bytes target hblank)
    · rintro ⟨-, c, hparses, -⟩
      exact absurd hparses (hnone c)

-- ---------------------------------------------------------------------------
-- Soundness of the machine check
-- ---------------------------------------------------------------------------

/-- The containers of a kind of output: an object file is no image. -/
def OutputKind.containers (kind : OutputKind) (target : TargetIdentity) : List Container :=
  match kind with
  | .object =>
    if target.objectFormat = .coff then [.coff]
    else if target.objectFormat = .elf then [.elf]
    else [.coff, .elf]
  | _ => if target.os = .windows then [.pe] else [.elf]

/-- The artifact is in a container of its kind that names the machine of the
target; a device image names the accelerator. `agrees` says whether the
architecture of a device image is that of an accelerator. -/
def MachineSound (agrees : Bytes → AcceleratorTarget → Prop) (bytes : Bytes) (kind : OutputKind)
    (target : TargetIdentity) : Prop :=
  match kind with
  | .cubin => Container.Parses bytes .elf ∧ Container.machine bytes .elf = kElfMachineCuda ∧
      agrees bytes target.accelerator
  | _ => ∃ c ∈ kind.containers target, Container.Parses bytes c ∧
      c.machineOf target.arch = some (c.machine bytes)

/-- The artifacts the validator takes for what they are not: a device image for
another accelerator, an object for 32-bit x86 where the target is another, where
the target names neither COFF nor ELF an image or a device image that is reported as
an object, and an image whose header is so close to 4 GiB that the machine is read
at the start of the file. -/
def Misjudged (agrees : Bytes → AcceleratorTarget → Prop) (bytes : Bytes) (kind : OutputKind)
    (target : TargetIdentity) : Prop :=
  match kind with
  | .cubin => Container.Parses bytes .elf ∧ Container.machine bytes .elf = kElfMachineCuda ∧
      ¬agrees bytes target.accelerator
  | .object =>
    target.objectFormat ≠ .elf ∧ Container.Parses bytes .coff ∧
        Container.machine bytes .coff = coffMachineX86 ∧ target.arch ≠ .x86 ∨
      target.objectFormat ≠ .coff ∧ target.objectFormat ≠ .elf ∧
        (Container.Parses bytes .pe ∧
            Container.machineOf .pe target.arch = some (Container.found bytes .pe) ∨
          Container.Parses bytes .elf ∧ Container.machine bytes .elf = kElfMachineCuda)
  | .executable | .dynamicLibrary =>
    target.os = .windows ∧ Container.Parses bytes .pe ∧
      Container.machineOf .pe target.arch = some (Container.found bytes .pe) ∧
      Container.found bytes .pe ≠ Container.machine bytes .pe
  | _ => False

/-- No architecture has the machine of a device image. -/
theorem machineOf_elf_ne_cuda (arch : ArchKind) : Container.machineOf .elf arch ≠ some kElfMachineCuda := by
  cases arch <;> decide

theorem machineOf_coff_x86 {arch : ArchKind} (h : arch ≠ .x86) :
    Container.machineOf .coff arch ≠ some coffMachineX86 := by
  cases arch <;> first | decide | exact absurd rfl h

/-- A misjudged artifact is let through. -/
theorem Misjudged.accepted {agrees : Bytes → AcceleratorTarget → Prop} {bytes : Bytes} {kind : OutputKind}
    {target : TargetIdentity} (h : Misjudged agrees bytes kind target) :
    ∃ c, Container.Parses bytes c ∧ formatAccepts kind target bytes c ∧
      (c.machineOf target.arch = some (c.found bytes) ∨
        c = .coff ∧ c.machine bytes = coffMachineX86 ∨ c = .elf ∧ c.machine bytes = kElfMachineCuda) := by
  unfold formatAccepts
  cases kind with
  | cubin => exact ⟨.elf, h.1, ⟨rfl, h.2.1⟩, .inr (.inr ⟨rfl, h.2.1⟩)⟩
  | object =>
    dsimp only
    rcases h with ⟨helf, hparses, hmachine, -⟩ | ⟨hcoff, helf, h⟩
    · refine ⟨.coff, hparses, ?_, .inr (.inl ⟨rfl, hmachine⟩)⟩
      split
      · rfl
      · trivial
    · simp only [if_neg hcoff, if_neg helf]
      rcases h with ⟨hparses, hmachine⟩ | ⟨hparses, hmachine⟩
      · exact ⟨.pe, hparses, trivial, .inl hmachine⟩
      · exact ⟨.elf, hparses, trivial, .inr (.inr ⟨rfl, hmachine⟩)⟩
  | executable =>
    obtain ⟨hos, hparses, hmachine, -⟩ := h
    exact ⟨.pe, hparses, by simp only [if_pos hos], .inl hmachine⟩
  | dynamicLibrary =>
    obtain ⟨hos, hparses, hmachine, -⟩ := h
    exact ⟨.pe, hparses, by simp only [if_pos hos], .inl hmachine⟩
  | staticLibrary => exact h.elim
  | ptx => exact h.elim
  | assembly => exact h.elim
  | preprocessedSource => exact h.elim

/-- A misjudged artifact is not what it passes for. -/
theorem Misjudged.not_sound {agrees : Bytes → AcceleratorTarget → Prop} {bytes : Bytes} {kind : OutputKind}
    {target : TargetIdentity} (h : Misjudged agrees bytes kind target) :
    ¬MachineSound agrees bytes kind target := by
  intro hsound
  have himage (hmisread : target.os = .windows ∧ Container.Parses bytes .pe ∧
      Container.machineOf .pe target.arch = some (Container.found bytes .pe) ∧
      Container.found bytes .pe ≠ Container.machine bytes .pe) :
      ¬∃ c ∈ (if target.os = .windows then [Container.pe] else [.elf]), Container.Parses bytes c ∧
        c.machineOf target.arch = some (c.machine bytes) := by
    obtain ⟨hos, -, hfound, hne⟩ := hmisread
    rw [if_pos hos]
    rintro ⟨c, hmem, -, hmachine⟩
    obtain rfl := List.mem_singleton.mp hmem
    exact hne (Option.some.inj (hfound.symm.trans hmachine))
  cases kind with
  | cubin => exact h.2.2 hsound.2.2
  | object =>
    obtain ⟨c, hmem, hparses, hmachine⟩ := hsound
    unfold OutputKind.containers at hmem
    dsimp only at hmem
    rcases h with ⟨-, hcoff, hx86, harch⟩ | ⟨hncoff, hnelf, h⟩
    · obtain rfl := hparses.unique hcoff
      rw [hx86] at hmachine
      exact machineOf_coff_x86 harch hmachine
    · rw [if_neg hncoff, if_neg hnelf] at hmem
      rcases h with ⟨hpe, -⟩ | ⟨helf, hcuda⟩
      · obtain rfl := hparses.unique hpe
        exact absurd hmem (by decide)
      · obtain rfl := hparses.unique helf
        rw [hcuda] at hmachine
        exact machineOf_elf_ne_cuda _ hmachine
  | executable => exact himage h hsound
  | dynamicLibrary => exact himage h hsound
  | staticLibrary => exact h.elim
  | ptx => exact h.elim
  | assembly => exact h.elim
  | preprocessedSource => exact h.elim

/-- What is let through and not misjudged is what it passes for. -/
theorem sound_of_accepted {agrees : Bytes → AcceleratorTarget → Prop} {bytes : Bytes} {kind : OutputKind}
    (embeds : kind.embedsMachine = true) {target : TargetIdentity} {c : Container}
    (parses : Container.Parses bytes c) (format : formatAccepts kind target bytes c)
    (machine : c.machineOf target.arch = some (c.found bytes) ∨
      c = .coff ∧ c.machine bytes = coffMachineX86 ∨ c = .elf ∧ c.machine bytes = kElfMachineCuda)
    (judged : ¬Misjudged agrees bytes kind target) : MachineSound agrees bytes kind target := by
  have himage (hread : ¬(target.os = .windows ∧ Container.Parses bytes .pe ∧
        Container.machineOf .pe target.arch = some (Container.found bytes .pe) ∧
        Container.found bytes .pe ≠ Container.machine bytes .pe))
      (h : if target.os = .windows then c = .pe else c = .elf ∧ c.machine bytes ≠ kElfMachineCuda) :
      ∃ c ∈ (if target.os = .windows then [Container.pe] else [.elf]), Container.Parses bytes c ∧
        c.machineOf target.arch = some (c.machine bytes) := by
    split at h
    · next hos =>
      subst h
      rw [if_pos hos]
      rcases machine with hmachine | ⟨hc, -⟩ | ⟨hc, -⟩
      · have hsame : Container.found bytes .pe = Container.machine bytes .pe := by
          by_contra hne
          exact hread ⟨hos, parses, hmachine, hne⟩
        exact ⟨.pe, List.mem_singleton_self _, parses, hsame ▸ hmachine⟩
      · cases hc
      · cases hc
    · next hos =>
      obtain ⟨rfl, hcuda⟩ := h
      rw [if_neg hos]
      rcases machine with hmachine | ⟨hc, -⟩ | ⟨-, hc⟩
      · exact ⟨.elf, List.mem_singleton_self _, parses, hmachine⟩
      · cases hc
      · exact absurd hc hcuda
  cases kind with
  | executable => exact himage judged format
  | dynamicLibrary => exact himage judged format
  | cubin =>
    obtain ⟨rfl, hcuda⟩ := format
    refine ⟨parses, hcuda, ?_⟩
    by_contra hagrees
    exact judged ⟨parses, hcuda, hagrees⟩
  | object =>
    unfold formatAccepts at format
    dsimp only at format
    show ∃ c ∈ OutputKind.containers .object target, _
    unfold OutputKind.containers
    dsimp only
    -- an object of 32-bit x86 is one only for that target
    have hcoff (hne : target.objectFormat ≠ .elf) (hc : c = .coff) :
        c.machineOf target.arch = some (c.machine bytes) := by
      subst hc
      rcases machine with hmachine | ⟨-, hx86⟩ | ⟨hc, -⟩
      · exact hmachine
      · by_contra hother
        refine judged (.inl ⟨hne, parses, hx86, fun harch => hother ?_⟩)
        rw [harch, hx86]
        rfl
      · cases hc
    split at format
    · next hformat =>
      subst format
      rw [if_pos hformat]
      exact ⟨.coff, List.mem_singleton_self _, parses, hcoff (by rw [hformat]; decide) rfl⟩
    · next hncoff =>
      rw [if_neg hncoff]
      split at format
      · next hformat =>
        obtain ⟨rfl, hcuda⟩ := format
        rw [if_pos hformat]
        rcases machine with hmachine | ⟨hc, -⟩ | ⟨-, hc⟩
        · exact ⟨.elf, List.mem_singleton_self _, parses, hmachine⟩
        · cases hc
        · exact absurd hc hcuda
      · next hnelf =>
        rw [if_neg hnelf]
        cases c with
        | coff => exact ⟨.coff, List.mem_cons_self .., parses, hcoff hnelf rfl⟩
        | pe =>
          rcases machine with hmachine | ⟨hc, -⟩ | ⟨hc, -⟩
          · exact absurd (.inr ⟨hncoff, hnelf, .inl ⟨parses, hmachine⟩⟩) judged
          · cases hc
          · cases hc
        | elf =>
          rcases machine with hmachine | ⟨hc, -⟩ | ⟨-, hcuda⟩
          · exact ⟨.elf, by decide, parses, hmachine⟩
          · cases hc
          · exact absurd (.inr ⟨hncoff, hnelf, .inr ⟨parses, hcuda⟩⟩) judged
  | staticLibrary => cases embeds
  | ptx => cases embeds
  | assembly => cases embeds
  | preprocessedSource => cases embeds

/-- A pass is sound exactly for the artifacts that are not misjudged. -/
theorem machine_metadata_sound_iff [HashFunction] (agrees : Bytes → AcceleratorTarget → Prop) (bytes : Bytes)
    (kind : OutputKind) (embeds : kind.embedsMachine = true) (target : TargetIdentity) (expected : Digest256) :
    ((validateArtifactBytes bytes kind target {} expected).aggregate = .pass →
      MachineSound agrees bytes kind target) ↔
        ¬(DigestMatches bytes expected ∧ Misjudged agrees bytes kind target) := by
  rw [passes_iff embeds]
  constructor
  · rintro hsound ⟨hdigest, hmisjudged⟩
    exact hmisjudged.not_sound (hsound ⟨hdigest, hmisjudged.accepted⟩)
  · rintro hjudged ⟨hdigest, c, hparses, hformat, hmachine⟩
    exact sound_of_accepted embeds hparses hformat hmachine fun hmisjudged => hjudged ⟨hdigest, hmisjudged⟩

/-- A COFF object of twenty bytes with one section, for the machine of the first two. -/
def smallObject (low high : UInt8) : Bytes := [low, high, 1] ++ List.replicate 17 0

/-- An object for x86_64 passes, as what it is. -/
theorem machine_metadata_sound_object :
    MachineSound (fun _ _ => False) (smallObject 0x64 0x86) .object
      { arch := .x86_64, objectFormat := .coff } := by
  refine (machine_metadata_sound_iff _ (smallObject 0x64 0x86) .object rfl
    { arch := .x86_64, objectFormat := .coff } (sha256 (smallObject 0x64 0x86))).mpr ?_ (by decide +kernel)
  rintro ⟨-, h⟩
  rcases h with ⟨-, -, h, -⟩ | ⟨h, -⟩
  · exact absurd h (by decide)
  · exact h rfl

/-- An object for 32-bit x86 passes as one for x86_64. -/
theorem not_machine_metadata_sound :
    let target : TargetIdentity := { arch := .x86_64, objectFormat := .coff }
    (validateArtifactBytes (smallObject 0x4C 0x01) .object target {}
        (sha256 (smallObject 0x4C 0x01))).aggregate = .pass ∧
      ∀ agrees, ¬MachineSound agrees (smallObject 0x4C 0x01) .object target := by
  intro target
  refine ⟨by decide +kernel, ?_⟩
  rintro agrees ⟨c, hmem, -, hmachine⟩
  obtain rfl := List.mem_singleton.mp hmem
  exact absurd hmachine (by decide)

-- ---------------------------------------------------------------------------
-- Kinds of output that can pass
-- ---------------------------------------------------------------------------

/-- Whatever container the bytes parse as, it names the machine of the target; a
device image has a machine of its own. -/
def MachineRight (bytes : Bytes) (kind : OutputKind) (target : TargetIdentity) : Prop :=
  ∀ c, Container.Parses bytes c → c.machineOf target.arch = some (c.machine bytes) ∨
    kind = .cubin ∧ c = .elf ∧ c.machine bytes = kElfMachineCuda

/-- Printable bytes that name a version or a target near their start. -/
def MentionsPtx (bytes : Bytes) : Prop :=
  looksLikeText bytes = true ∧ (containsText (txt ".version") (bytes.take 512) = true ∨
    containsText (txt ".target") (bytes.take 512) = true)

/-- An image whose machine is read at the start of the file, and is another there. -/
def Misread (bytes : Bytes) : Prop :=
  Container.Parses bytes .pe ∧ Container.found bytes .pe ≠ Container.machine bytes .pe

theorem machineMatches_of_blank {probe : FormatProbe} (blank : probe.Blank) (target : TargetIdentity) :
    (machineMatchesTarget probe target).isOk = true := by
  unfold machineMatchesTarget
  rw [blank.coff, blank.elf, Bool.false_and, if_neg Bool.false_ne_true, if_neg Bool.false_ne_true,
    if_neg Bool.false_ne_true]
  rfl

/-- The right machine is accepted once anything is recognised. -/
theorem machineMatches_of_right {bytes : Bytes} {kind : OutputKind} {target : TargetIdentity}
    (right : MachineRight bytes kind target) (read : ¬Misread bytes) :
    (machineMatchesTarget (probeFormat bytes) target).isOk = true := by
  rcases probeFormat_cases bytes with ⟨c, hparses, hreads⟩ | ⟨-, hblank, -⟩
  · rw [machineMatches_iff hreads]
    have hfound : c.found bytes = c.machine bytes := by
      cases c with
      | pe => exact not_not.mp fun hne => read ⟨hparses, hne⟩
      | elf => rfl
      | coff => rfl
    rcases right c hparses with h | ⟨-, h⟩
    · exact .inl (hfound ▸ h)
    · exact .inr (.inr h)
  · exact machineMatches_of_blank hblank target

/-- The metadata check of a binary kind is open exactly when nothing was
recognised. -/
theorem targetMetadata_unknown_iff {kind : OutputKind}
    (binary : kind ≠ .assembly ∧ kind ≠ .preprocessedSource) (target : TargetIdentity) (probe : FormatProbe) :
    (targetMetadataCheck kind target probe).outcome = .unknown ↔ probe.recognized = false := by
  unfold targetMetadataCheck
  rw [if_neg (not_or.mpr binary)]
  split
  · next hrecognized =>
    rw [hrecognized]
    split
    · exact ⟨fun h => (nomatch h), fun h => (nomatch h)⟩
    · exact ⟨fun h => (nomatch h), fun h => (nomatch h)⟩
  · next hrecognized => exact ⟨fun _ => Bool.eq_false_iff.mpr hrecognized, fun _ => rfl⟩

/-- An archive begins with another word than any container. -/
theorem blank_of_archive {bytes : Bytes} (archive : hasPrefix bytes (txt "!<arch>\n") = true) (c : Container) :
    ¬Container.Parses bytes c := by
  intro hparses
  have hword : readLe16 bytes 0 = 0x3C21 := readLe16_of_hasPrefix archive
  cases c with
  | pe => exact absurd (hword.symm.trans (first_word_of_pe hparses)) (by decide)
  | elf => exact absurd (hword.symm.trans (first_word_of_elf hparses)) (by decide)
  | coff =>
    have hmem := hparses.2.1
    rw [hword] at hmem
    exact absurd hmem (by decide)

theorem probePtx_archive {bytes : Bytes} (archive : hasPrefix bytes (txt "!<arch>\n") = true) :
    (probePtx bytes).recognized = true ↔ MentionsPtx bytes := by
  have hslash : hasPrefix (bytes.take 512) (txt "//") = false := by
    unfold hasPrefix at archive ⊢
    obtain ⟨tail, rfl⟩ := List.isPrefixOf_iff_prefix.mp archive
    rfl
  unfold probePtx MentionsPtx
  cases looksLikeText bytes with
  | false => exact ⟨fun h => (nomatch h), fun h => (nomatch h.1)⟩
  | true =>
    show (if (containsText (txt ".version") (bytes.take 512) || containsText (txt ".target") (bytes.take 512) ||
      hasPrefix (bytes.take 512) (txt "//")) = true then
        { recognized := true, description := txt "PTX text module" } else ({} : FormatProbe)).recognized =
      true ↔ _
    rw [hslash, Bool.or_false, ← Bool.or_eq_true]
    split
    · next h => exact ⟨fun _ => ⟨rfl, h⟩, fun _ => rfl⟩
    · next h => exact ⟨fun h => (nomatch h), fun hmentions => absurd hmentions.2 h⟩

/-- What passes the format check is recognised, archives apart. -/
theorem recognized_of_format {bytes : Bytes} {kind : OutputKind} {target : TargetIdentity}
    (binary : kind ≠ .assembly ∧ kind ≠ .preprocessedSource) (archive : kind ≠ .staticLibrary)
    (format : (formatCheck bytes kind target (probeFormat bytes)).outcome = .pass) :
    (probeFormat bytes).recognized = true := by
  by_cases hembeds : kind.embedsMachine = true
  · rcases probeFormat_cases bytes with ⟨c, -, hreads⟩ | ⟨-, hblank, -⟩
    · exact hreads.recognized
    · exact absurd format (formatCheck_of_blank hembeds bytes target hblank)
  · cases kind with
    | ptx =>
      unfold formatCheck at format
      rw [passOrFail_outcome, Bool.and_eq_true] at format
      exact format.1
    | staticLibrary => exact absurd rfl archive
    | assembly => exact absurd rfl binary.1
    | preprocessedSource => exact absurd rfl binary.2
    | object => exact absurd rfl hembeds
    | executable => exact absurd rfl hembeds
    | dynamicLibrary => exact absurd rfl hembeds
    | cubin => exact absurd rfl hembeds

/-- What passes the format check is not empty. -/
theorem ne_nil_of_format {bytes : Bytes} {kind : OutputKind} {target : TargetIdentity}
    (format : (formatCheck bytes kind target (probeFormat bytes)).outcome = .pass) : bytes ≠ [] := by
  rintro rfl
  cases kind with
  | executable =>
    have hfail := @formatCheck_of_blank .executable rfl [] target {} ⟨rfl, rfl, rfl, rfl, rfl⟩
    exact hfail format
  | object =>
    have hfail := @formatCheck_of_blank .object rfl [] target {} ⟨rfl, rfl, rfl, rfl, rfl⟩
    exact hfail format
  | dynamicLibrary =>
    have hfail := @formatCheck_of_blank .dynamicLibrary rfl [] target {} ⟨rfl, rfl, rfl, rfl, rfl⟩
    exact hfail format
  | cubin => cases format
  | staticLibrary => cases format
  | ptx => cases format
  | assembly => cases format
  | preprocessedSource => cases format

theorem passOrFail_check (check : String) (ok : Bool) (passed failed : Bytes) :
    (passOrFail check ok passed failed).check = txt check := by
  unfold passOrFail
  cases ok <;> rfl

theorem formatCheck_check (bytes : Bytes) (kind : OutputKind) (target : TargetIdentity) (probe : FormatProbe) :
    (formatCheck bytes kind target probe).check = txt "format" := by
  unfold formatCheck
  cases kind with
  | executable => dsimp only; split <;> exact passOrFail_check ..
  | dynamicLibrary => dsimp only; split <;> exact passOrFail_check ..
  | object => dsimp only; split <;> [skip; split] <;> exact passOrFail_check ..
  | staticLibrary => exact passOrFail_check ..
  | cubin => exact passOrFail_check ..
  | ptx => exact passOrFail_check ..
  | assembly => exact passOrFail_check ..
  | preprocessedSource => exact passOrFail_check ..

theorem digestCheck_check [HashFunction] (bytes : Bytes) (expected : Digest256) :
    (digestCheck bytes expected).check = txt "digest" := by
  unfold digestCheck
  dsimp only
  split <;> exact passOrFail_check ..

theorem targetMetadataCheck_check (kind : OutputKind) (target : TargetIdentity) (probe : FormatProbe) :
    (targetMetadataCheck kind target probe).check = txt "target_metadata" := by
  unfold targetMetadataCheck
  split
  · rfl
  · split
    · split <;> rfl
    · rfl

/-- Under the default requirements one check is about the target. -/
theorem decided_iff [HashFunction] (bytes : Bytes) (kind : OutputKind) (target : TargetIdentity)
    (expected : Digest256) :
    (∀ check ∈ (validateArtifactBytes bytes kind target {} expected).checks,
      check.check = txt "target_metadata" → check.outcome = .pass ∨ check.outcome = .fail) ↔
      (targetMetadataCheck kind target (probeFormat bytes)).outcome ≠ .unknown := by
  have hchecks : (validateArtifactBytes bytes kind target {} expected).checks =
      [existenceCheck bytes, digestCheck bytes expected, formatCheck bytes kind target (probeFormat bytes),
        targetMetadataCheck kind target (probeFormat bytes)] := rfl
  have hexistence : (existenceCheck bytes).check ≠ txt "target_metadata" := by
    rw [existenceCheck, passOrFail_check]
    decide
  have hdigest : (digestCheck bytes expected).check ≠ txt "target_metadata" := by
    rw [digestCheck_check]
    decide
  have hformat : (formatCheck bytes kind target (probeFormat bytes)).check ≠ txt "target_metadata" := by
    rw [formatCheck_check]
    decide
  rw [hchecks, List.forall_mem_cons, List.forall_mem_cons, List.forall_mem_cons, List.forall_mem_singleton]
  constructor
  · intro h hunknown
    have hdecided := h.2.2.2 (targetMetadataCheck_check ..)
    rw [hunknown] at hdecided
    rcases hdecided with h | h <;> cases h
  · intro h
    refine ⟨fun hname => absurd hname hexistence, fun hname => absurd hname hdigest,
      fun hname => absurd hname hformat, fun _ => ?_⟩
    cases houtcome : (targetMetadataCheck kind target (probeFormat bytes)).outcome with
    | pass => exact .inl rfl
    | fail => exact .inr rfl
    | unknown => exact absurd houtcome h

/-- The right machine passes the metadata check once it is decided. -/
theorem targetMetadata_pass_of_right {bytes : Bytes} {kind : OutputKind} {target : TargetIdentity}
    (right : MachineRight bytes kind target)
    (read : kind ≠ .assembly ∧ kind ≠ .preprocessedSource → ¬Misread bytes)
    (decided : (targetMetadataCheck kind target (probeFormat bytes)).outcome ≠ .unknown) :
    (targetMetadataCheck kind target (probeFormat bytes)).outcome = .pass := by
  by_cases hbinary : kind ≠ .assembly ∧ kind ≠ .preprocessedSource
  · rw [Ne, targetMetadata_unknown_iff hbinary, Bool.not_eq_false] at decided
    exact (targetMetadata_pass_iff hbinary target _).mpr ⟨decided, machineMatches_of_right right (read hbinary)⟩
  · unfold targetMetadataCheck
    rw [not_and_or, not_not, not_not] at hbinary
    rw [if_pos hbinary]

/-- Where the format check passes, the metadata check is decided and the right
machine passes, archives that do not read as device assembly and images whose machine
is read in the wrong place apart. -/
theorem target_metadata_decided_iff [HashFunction] (bytes : Bytes) (kind : OutputKind) (target : TargetIdentity)
    (expected : Digest256) (format : (formatCheck bytes kind target (probeFormat bytes)).outcome = .pass) :
    ((∀ check ∈ (validateArtifactBytes bytes kind target {} expected).checks,
        check.check = txt "target_metadata" → check.outcome = .pass ∨ check.outcome = .fail) ∧
      (DigestMatches bytes expected → MachineRight bytes kind target →
        (validateArtifactBytes bytes kind target {} expected).aggregate = .pass)) ↔
      (kind = .staticLibrary → MentionsPtx bytes) ∧ ¬(DigestMatches bytes expected ∧
        MachineRight bytes kind target ∧ (kind ≠ .assembly ∧ kind ≠ .preprocessedSource) ∧ Misread bytes) := by
  have hdecided : (targetMetadataCheck kind target (probeFormat bytes)).outcome ≠ .unknown ↔
      (kind = .staticLibrary → MentionsPtx bytes) := by
    by_cases hbinary : kind ≠ .assembly ∧ kind ≠ .preprocessedSource
    · rw [Ne, targetMetadata_unknown_iff hbinary, Bool.not_eq_false]
      by_cases harchive : kind = .staticLibrary
      · subst harchive
        unfold formatCheck at format
        rw [passOrFail_outcome] at format
        rcases probeFormat_cases bytes with ⟨c, hparses, -⟩ | ⟨-, -, hrecognized⟩
        · exact absurd hparses (blank_of_archive format c)
        · have hbytes : bytes.isEmpty = false := by
            rw [List.isEmpty_eq_false_iff]
            rintro rfl
            cases format
          rw [hrecognized, hbytes, Bool.not_false, Bool.true_and, probePtx_archive format]
          exact ⟨fun h _ => h, fun h => h rfl⟩
      · exact ⟨fun _ h => absurd h harchive, fun _ => recognized_of_format hbinary harchive format⟩
    · unfold targetMetadataCheck
      rw [not_and_or, not_not, not_not] at hbinary
      rw [if_pos hbinary]
      refine ⟨fun _ h => ?_, fun _ h => (nomatch h)⟩
      rcases hbinary with hkind | hkind <;> rw [hkind] at h <;> cases h
  rw [decided_iff, ← hdecided]
  constructor
  · rintro ⟨hknown, hpasses⟩
    refine ⟨hknown, ?_⟩
    rintro ⟨hdigest, hright, hbinary, hpe, hne⟩
    have hpass := hpasses hdigest hright
    rw [validate_default_pass_iff, targetMetadata_pass_iff hbinary, machineMatches_iff (reads_of_parses hpe)] at hpass
    obtain ⟨-, -, -, -, hfound | ⟨hc, -⟩ | ⟨hc, -⟩⟩ := hpass
    · rcases hright .pe hpe with hmachine | ⟨-, hc, -⟩
      · exact hne (Option.some.inj (hfound.symm.trans hmachine))
      · cases hc
    · cases hc
    · cases hc
  · rintro ⟨hknown, hread⟩
    refine ⟨hknown, fun hdigest hright => ?_⟩
    rw [validate_default_pass_iff]
    refine ⟨ne_nil_of_format format, hdigest, format, targetMetadata_pass_of_right hright (fun hbinary hmisread => ?_) hknown⟩
    exact hread ⟨hdigest, hright, hbinary, hmisread⟩

/-- An empty archive. -/
def emptyArchive : Bytes := txt "!<arch>\n"

/-- An object for x86_64 is decided, and passes. -/
theorem target_metadata_decided_object :
    (validateArtifactBytes (smallObject 0x64 0x86) .object { arch := .x86_64, objectFormat := .coff } {}
      (sha256 (smallObject 0x64 0x86))).aggregate = .pass := by
  refine ((target_metadata_decided_iff (smallObject 0x64 0x86) .object
    { arch := .x86_64, objectFormat := .coff } (sha256 (smallObject 0x64 0x86)) (by decide)).mpr
      ⟨fun h => (nomatch h), fun h => absurd h.2.2.2.1 (by decide)⟩).2 ⟨by decide +kernel, rfl⟩ fun c hparses => ?_
  have hcoff : Container.Parses (smallObject 0x64 0x86) .coff := by decide
  obtain rfl := hparses.unique hcoff
  exact .inl (by decide)

/-- An archive is an archive, and its machine remains unknown. -/
theorem not_target_metadata_decided :
    let target : TargetIdentity := { arch := .x86_64 }
    let report := validateArtifactBytes emptyArchive .staticLibrary target {} (sha256 emptyArchive)
    (formatCheck emptyArchive .staticLibrary target (probeFormat emptyArchive)).outcome = .pass ∧
      (targetMetadataCheck .staticLibrary target (probeFormat emptyArchive)).outcome = .unknown ∧
      targetMetadataCheck .staticLibrary target (probeFormat emptyArchive) ∈ report.checks ∧
      report.aggregate = .unknown := by
  decide +kernel

end DistributedCompilation
