import DistributedCompilation.Codec.RequestRoundTrip
import DistributedCompilation.Domain.Identification

/-!
# Distributed Compilation — canonical forms are fixed points

What a decoder canonicalizes again was canonical when it was written. For
toolchains, targets, dependency sets, flags and units the second pass changes
nothing. Two descriptors are the exception: specializations and environments
are sorted *before* their names are trimmed, so trimming may leave them out of
order. `Ordered` says that it did not; it decides whether they are fixed points
(`canonicalizeSpecialization_self_iff`, `canonicalizeEnvironment_self_iff`).
-/

namespace DistributedCompilation

-- ---------------------------------------------------------------------------
-- Comparisons are orders
-- ---------------------------------------------------------------------------

instance : Std.TransCmp compareSdk := inferInstanceAs (Std.TransCmp (compareOn SdkComponent.name))

instance : Std.TransCmp comparePlugin := inferInstanceAs (Std.TransCmp (compareOn PluginIdentity.id))

instance : Std.TransCmp compareConfig :=
  inferInstanceAs (Std.TransCmp (compareOn (Prod.fst : Bytes × Bytes → Bytes)))

instance : Std.TransCmp compareSource :=
  inferInstanceAs (Std.TransCmp (compareOn UnitSource.logicalName))

instance : Std.TransCmp (fun a b : SpecField => compare a.name b.name) :=
  inferInstanceAs (Std.TransCmp (compareOn SpecField.name))

instance : Std.TransCmp compareDependency :=
  inferInstanceAs (Std.TransCmp (compareLex (compareOn fun e : DependencyEntry => WireEnum.code e.kind)
    (compareLex (compareOn DependencyEntry.name)
      (compareLex (compareOn fun e => e.content.digest) (compareOn fun e => e.content.size)))))

-- ---------------------------------------------------------------------------
-- Text
-- ---------------------------------------------------------------------------

/-- A front part of a text that starts with no space starts with none. -/
theorem dropWhile_eq_self_of_prefix {α : Type} {p : α → Bool} {front text : List α}
    (h : text.dropWhile p = text) (hfront : front <+: text) : front.dropWhile p = front := by
  cases front with
  | nil => rfl
  | cons x front =>
    obtain ⟨tail, rfl⟩ := hfront
    have hx := List.dropWhile_eq_self_iff.mp h (Nat.succ_pos _)
    exact List.dropWhile_eq_self_iff.mpr fun _ => hx

@[simp] theorem trim_trim (text : Bytes) : trim (trim text) = trim text := by
  have front : (trim text).dropWhile isSpace = trim text :=
    dropWhile_eq_self_of_prefix (List.dropWhile_idempotent ..)
      (List.rdropWhile_prefix isSpace (text.dropWhile isSpace))
  show ((trim text).dropWhile isSpace).rdropWhile isSpace = trim text
  rw [front]
  exact List.rdropWhile_idempotent ..

-- ---------------------------------------------------------------------------
-- Names
-- ---------------------------------------------------------------------------

/-- The names of a list increase strictly. -/
def Ordered {α : Type} (name : α → Bytes) (items : List α) : Prop :=
  items.Pairwise fun a b => compare (name a) (name b) = .lt

theorem Ordered.sorted {α : Type} {name : α → Bytes} {items : List α} (h : Ordered name items) :
    SortedBy (fun a b => compare (name a) (name b)) items :=
  List.Pairwise.imp (fun {a b} hlt => by
    show (compare (name a) (name b)).isLE = true
    rw [hlt]
    rfl) h

theorem duplicateName?_eq_none_iff {α : Type} {name : α → Bytes} {items : List α} :
    duplicateName? name items = none ↔ items.IsChain fun a b => name b ≠ name a := by
  induction items with
  | nil => simp [duplicateName?]
  | cons a items ih =>
    cases items with
    | nil => simp [duplicateName?]
    | cons b rest =>
      rw [duplicateName?, List.isChain_cons_cons, ← ih]
      split <;> simp_all

/-- Sorted names are distinct when no neighbours agree. -/
theorem ordered_iff {α : Type} {name : α → Bytes} {items : List α} :
    Ordered name items ↔ SortedBy (fun a b => compare (name a) (name b)) items ∧
      duplicateName? name items = none := by
  rw [duplicateName?_eq_none_iff]
  have trans : IsTrans α fun a b => compare (name a) (name b) = .lt :=
    ⟨fun _ _ _ => Std.TransCmp.lt_trans⟩
  constructor
  · intro h
    refine ⟨h.sorted, List.IsChain.imp (fun a b hlt heq => ?_) (List.Pairwise.isChain h)⟩
    have same : compare (name a) (name a) = .eq := Std.ReflOrd.compare_self
    rw [heq, same] at hlt
    cases hlt
  · rintro ⟨hsorted, hchain⟩
    refine List.isChain_iff_pairwise.mp ?_
    have both := List.Pairwise.isChain hsorted
    induction items with
    | nil => exact .nil
    | cons a items ih =>
      cases items with
      | nil => exact .singleton _
      | cons b rest =>
        rw [List.isChain_cons_cons] at both hchain ⊢
        refine ⟨?_, ih (List.Pairwise.of_cons hsorted) hchain.2 both.2⟩
        cases hc : compare (name a) (name b) with
        | lt => rfl
        | eq => exact absurd (Std.LawfulEqOrd.eq_of_compare hc).symm hchain.1
        | gt =>
          have hle : (compare (name a) (name b)).isLE = true := both.1
          rw [hc] at hle
          exact absurd hle (by decide)

-- ---------------------------------------------------------------------------
-- Toolchains, targets and dependency sets
-- ---------------------------------------------------------------------------

variable [HashFunction]

omit [HashFunction] in
/-- The identity of a toolchain is not about where its SDKs are installed. -/
theorem toolchainRecord_carried (toolchain : ToolchainIdentity) :
    toolchainRecord toolchain.carried = toolchainRecord toolchain := by
  have sdk : writeList (toolchain.sdk.map fun x => ({ name := x.name, version := x.version } :
      SdkComponent)) writeSdk = writeList toolchain.sdk writeSdk := by
    rw [writeList, writeList, List.flatMap_map, Field.count, Field.count, List.length_map]
    rfl
  simp only [toolchainRecord, ToolchainIdentity.carried, sdk]

/-- What `canonicalize(toolchain)` establishes. -/
structure ToolchainIdentity.Canonical (toolchain : ToolchainIdentity) : Prop where
  sdk : SortedBy compareSdk toolchain.sdk
  plugins : SortedBy comparePlugin toolchain.plugins
  targetLibraries : uniqueBy (· == ·) (sortBy compare toolchain.targetLibraries) =
    toolchain.targetLibraries
  configuration : uniqueBy (fun a b => a.1 == b.1) (sortBy compareConfig toolchain.configuration) =
    toolchain.configuration
  id : toolchain.id = deriveToolchainId toolchain
  evidence : toolchain.evidenceId.isZero → toolchain.evidenceId = toolchainEvidenceId toolchain.id
  identity : toolchain.identityDigest = computeToolchainIdentity toolchain

theorem canonical_canonicalizeToolchain (toolchain : ToolchainIdentity) :
    (canonicalizeToolchain toolchain).Canonical := by
  rw [canonicalizeToolchain]
  dsimp only
  split
  all_goals exact {
    sdk := sortedBy_sortBy _ _
    plugins := sortedBy_sortBy _ _
    targetLibraries := uniqueBy_sortBy_idem _ _
    configuration := uniqueBy_sortBy_idem _ _
    id := by simp only [deriveToolchainId, toolchainIdRecord]
    evidence := fun h => by first | rfl | exact absurd h ‹_›
    identity := by simp only [computeToolchainIdentity, toolchainRecord] }

namespace ToolchainIdentity.Canonical

variable {toolchain : ToolchainIdentity} (h : toolchain.Canonical)

include h

theorem fixed : canonicalizeToolchain toolchain = toolchain := by
  have id : deriveToolchainId { toolchain with
      sdk := sortBy compareSdk toolchain.sdk
      plugins := sortBy comparePlugin toolchain.plugins
      targetLibraries := uniqueBy (· == ·) (sortBy compare toolchain.targetLibraries)
      configuration := uniqueBy (fun a b => a.1 == b.1)
        (sortBy compareConfig toolchain.configuration) } = toolchain.id := by
    rw [h.id]
    simp only [deriveToolchainId, toolchainIdRecord]
  rw [canonicalizeToolchain]
  dsimp only
  rw [id, sortBy_of_sorted h.sdk, sortBy_of_sorted h.plugins, h.targetLibraries, h.configuration]
  split
  next hzero => rw [← h.evidence hzero, ← h.identity]
  next => rw [← h.identity]

theorem withGeneration (generation : ToolchainGeneration) :
    { toolchain with generation := generation }.Canonical where
  sdk := h.sdk
  plugins := h.plugins
  targetLibraries := h.targetLibraries
  configuration := h.configuration
  id := h.id
  evidence := h.evidence
  identity := h.identity

theorem carried : toolchain.carried.Canonical where
  sdk := SortedBy.map (f := fun x : SdkComponent => ({ name := x.name, version := x.version } :
    SdkComponent)) (fun _ _ => rfl) h.sdk
  plugins := h.plugins
  targetLibraries := h.targetLibraries
  configuration := h.configuration
  id := h.id
  evidence := h.evidence
  identity := by
    show toolchain.identityDigest = _
    rw [h.identity, computeToolchainIdentity, computeToolchainIdentity, toolchainRecord_carried]

end ToolchainIdentity.Canonical

/-- What `canonicalize(target)` and the derivation of its id establish. -/
def TargetIdentity.Canonical (target : TargetIdentity) : Prop :=
  target.identityDigest = computeTargetIdentity target ∧ target.id = deriveTargetId target

/-- What `canonicalize(dependency set)` establishes. -/
structure DependencySet.Canonical (set : DependencySet) : Prop where
  entries : uniqueBy (fun a b => a.name == b.name && a.kind == b.kind &&
      a.content.digest == b.content.digest && a.content.size == b.content.size)
    (sortBy compareDependency set.entries) = set.entries
  acceptable : ∀ entry ∈ set.entries, entry.Acceptable
  id : set.id = deriveDependencySetId set
  identity : set.identityDigest = computeDependencySetIdentity set

/-- Giving each entry its own identity changes nothing else. -/
theorem map_identify_of_acceptable {entries : List DependencyEntry}
    (h : ∀ entry ∈ entries, entry.Acceptable) :
    (entries.map fun entry => { entry with
      identityDigest := computeDependencyEntryIdentity entry }) = entries := by
  conv_rhs => rw [← List.map_id entries]
  refine List.map_congr_left fun entry hentry => ?_
  rw [h entry hentry]
  rfl

theorem canonical_canonicalizeDependencySet (set : DependencySet) :
    (canonicalizeDependencySet set).Canonical := by
  rw [canonicalizeDependencySet]
  dsimp only
  refine {
    entries := ?_, acceptable := ?_
    id := by simp only [deriveDependencySetId]
    identity := by simp only [computeDependencySetIdentity, dependencySetRecord] }
  · let identify : DependencyEntry → DependencyEntry := fun entry =>
      { entry with identityDigest := computeDependencyEntryIdentity entry }
    let same : DependencyEntry → DependencyEntry → Bool := fun a b => a.name == b.name &&
      a.kind == b.kind && a.content.digest == b.content.digest && a.content.size == b.content.size
    have sorted : ∀ entries, sortBy compareDependency (entries.map identify) =
        (sortBy compareDependency entries).map identify := sortBy_map identify fun _ _ => rfl
    have distinct : ∀ entries, uniqueBy same (entries.map identify) =
        (uniqueBy same entries).map identify := uniqueBy_map identify fun _ _ => rfl
    show uniqueBy same (sortBy compareDependency ((uniqueBy same (sortBy compareDependency
      set.entries)).map identify)) = (uniqueBy same (sortBy compareDependency set.entries)).map identify
    rw [sorted, distinct, uniqueBy_sortBy_idem]
  · intro entry hentry
    obtain ⟨entry, -, rfl⟩ := List.mem_map.mp hentry
    rfl

namespace DependencySet.Canonical

variable {set : DependencySet} (h : set.Canonical)

include h

theorem fixed : canonicalizeDependencySet set = set := by
  rw [canonicalizeDependencySet]
  dsimp only
  rw [h.entries, map_identify_of_acceptable h.acceptable]
  have id : deriveDependencySetId { set with entries := set.entries } = set.id := h.id.symm
  have identity : computeDependencySetIdentity { set with entries := set.entries } =
    set.identityDigest := h.identity.symm
  rw [id, identity]

theorem withGeneration (generation : DependencyGeneration) :
    { set with generation := generation }.Canonical where
  entries := h.entries
  acceptable := h.acceptable
  id := h.id
  identity := h.identity

end DependencySet.Canonical

-- ---------------------------------------------------------------------------
-- Environments
-- ---------------------------------------------------------------------------

omit [HashFunction] in
theorem trimmed_of_mem_environment {env : EnvironmentContract} {kv : Bytes × Bytes}
    (h : kv ∈ (canonicalizeEnvironment env).vars) : trim kv.1 = kv.1 := by
  obtain ⟨raw, -, rfl⟩ := List.mem_map.mp (mem_of_mem_uniqueBy h)
  exact trim_trim _

omit [HashFunction] in
/-- The variables of a canonical environment, canonicalized once more. -/
theorem vars_canonicalizeEnvironment_self (env : EnvironmentContract) :
    (canonicalizeEnvironment (canonicalizeEnvironment env)).vars =
      uniqueBy (fun a b => a.1 == b.1) (sortBy compareConfig (canonicalizeEnvironment env).vars) := by
  have trimmed : (sortBy compareConfig (canonicalizeEnvironment env).vars).map
      (fun kv => (trim kv.1, kv.2)) = sortBy compareConfig (canonicalizeEnvironment env).vars := by
    conv_rhs => rw [← List.map_id (sortBy _ _)]
    refine List.map_congr_left fun kv hkv => ?_
    rw [trimmed_of_mem_environment (mem_sortBy.mp hkv)]
    rfl
  show uniqueBy _ ((sortBy compareConfig (canonicalizeEnvironment env).vars).map _) = _
  rw [trimmed]

omit [HashFunction] in
/-- A canonical environment is a fixed point exactly when trimming left its
names in order. -/
theorem canonicalizeEnvironment_self_iff (env : EnvironmentContract) :
    canonicalizeEnvironment (canonicalizeEnvironment env) = canonicalizeEnvironment env ↔
      SortedBy compareConfig (canonicalizeEnvironment env).vars := by
  constructor
  · intro heq
    rw [← congrArg EnvironmentContract.vars heq, vars_canonicalizeEnvironment_self]
    exact (sortedBy_sortBy _ _).sublist (uniqueBy_sublist _ _)
  · intro hsorted
    have vars := vars_canonicalizeEnvironment_self env
    rw [sortBy_of_sorted hsorted] at vars
    have distinct : uniqueBy (fun a b => a.1 == b.1) (canonicalizeEnvironment env).vars =
        (canonicalizeEnvironment env).vars := uniqueBy_uniqueBy _ _
    rw [distinct] at vars
    exact congrArg (fun vars => { canonicalizeEnvironment env with vars := vars }) vars

-- ---------------------------------------------------------------------------
-- Specializations
-- ---------------------------------------------------------------------------

omit [HashFunction] in
theorem canonicalizeSpecField_eq_ok_iff {field field' : SpecField} :
    canonicalizeSpecField field = .ok field' ↔
      ((trim field.name).isEmpty = false ∧ containsControl (trim field.name) = false) ∧
        field' = { field with name := trim field.name } := by
  rw [canonicalizeSpecField, refuse_or_eq_ok_iff, refuse_or_eq_ok_iff, Bool.not_eq_true,
    Bool.not_eq_true, and_assoc]
  refine and_congr_right fun _ => and_congr_right fun _ => ?_
  exact ⟨fun h => (Except.ok.inj h).symm, fun h => congrArg Except.ok h.symm⟩

/-- A specialization and its canonical form. -/
structure SpecCanonicalized (spec spec' : SpecializationSpec) : Prop where
  distinct : duplicateName? (·.name) (sortBy (fun a b => compare a.name b.name) spec.fields) = none
  fields : (sortBy (fun a b => compare a.name b.name) spec.fields).mapM canonicalizeSpecField =
    .ok spec'.fields
  fits : (specializationRecord spec').fits = true
  generation : spec'.generation = spec.generation
  id : spec'.id = deriveSpecializationId spec'
  identity : spec'.identityDigest = computeSpecializationIdentity spec'

theorem canonicalizeSpecialization_eq_ok_iff {spec spec' : SpecializationSpec} :
    canonicalizeSpecialization spec = .ok spec' ↔ SpecCanonicalized spec spec' := by
  have record : ∀ id generation fields digest fields' id' generation' digest', fields = fields' →
      specializationRecord ⟨id, generation, fields, digest⟩ =
        specializationRecord ⟨id', generation', fields', digest'⟩ := by
    rintro _ _ _ _ _ _ _ _ rfl
    simp only [specializationRecord]
  have derived : ∀ id generation fields digest fields' id' generation' digest', fields = fields' →
      deriveSpecializationId ⟨id, generation, fields, digest⟩ =
        deriveSpecializationId ⟨id', generation', fields', digest'⟩ := by
    rintro _ _ _ _ _ _ _ _ rfl
    simp only [deriveSpecializationId]
  rw [canonicalizeSpecialization]
  dsimp only
  constructor
  · intro h
    split at h
    · cases h
    next hdistinct =>
    obtain ⟨fields, hfields, h⟩ := bind_eq_ok_iff.mp h
    rw [writes_bind_eq_ok_iff] at h
    obtain ⟨hfits, heq⟩ := h
    have heq := (Except.ok.inj heq).symm
    generalize hid : deriveSpecializationId _ = id at heq
    generalize hdigest : computeSpecializationIdentity _ = digest at heq
    subst heq
    exact {
      distinct := hdistinct, fields := hfields, generation := rfl
      fits := record _ _ _ _ _ _ _ _ rfl ▸ hfits
      id := hid.symm.trans (derived _ _ _ _ _ _ _ _ rfl)
      identity := hdigest.symm.trans (congrArg Record.hash (record _ _ _ _ _ _ _ _ rfl)) }
  · intro h
    rw [h.distinct]
    refine bind_eq_ok_iff.mpr ⟨spec'.fields, h.fields, ?_⟩
    rw [writes_bind_eq_ok_iff]
    refine ⟨record _ _ _ _ _ _ _ _ rfl ▸ h.fits, congrArg Except.ok ?_⟩
    obtain ⟨id, generation, fields, digest⟩ := spec'
    obtain rfl : generation = spec.generation := h.generation
    have hid : id = _ := h.id
    have hdigest : digest = _ := h.identity
    rw [SpecializationSpec.mk.injEq]
    refine ⟨?_, rfl, rfl, ?_⟩
    · rw [hid]
      exact derived _ _ _ _ _ _ _ _ rfl
    · rw [hdigest]
      exact congrArg Record.hash (record _ _ _ _ _ _ _ _ rfl)

namespace SpecCanonicalized

variable {spec spec' spec'' : SpecializationSpec} (h : SpecCanonicalized spec spec')

include h

/-- The names of a canonical specialization are trimmed and not empty. -/
theorem field_self {field : SpecField} (hfield : field ∈ spec'.fields) :
    canonicalizeSpecField field = .ok field := by
  obtain ⟨raw, -, hraw⟩ := mem_of_mapM_eq_ok h.fields hfield
  obtain ⟨hname, heq⟩ := canonicalizeSpecField_eq_ok_iff.mp hraw
  rw [canonicalizeSpecField_eq_ok_iff, heq]
  simp only [trim_trim, and_true]
  exact hname

theorem mapM_self {fields : List SpecField} (hsub : ∀ field ∈ fields, field ∈ spec'.fields) :
    fields.mapM canonicalizeSpecField = .ok fields := by
  rw [mapM_eq_ok_iff]
  exact List.forall₂_same.mpr fun field hfield => h.field_self (hsub field hfield)

/-- Trimming that leaves the names in order leaves a fixed point. -/
theorem self_of_ordered (hordered : Ordered (·.name) spec'.fields)
    (generation : SpecializationGeneration) :
    SpecCanonicalized { spec' with generation := generation }
      { spec' with generation := generation } where
  distinct := by
    show duplicateName? (·.name) (sortBy _ spec'.fields) = none
    rw [sortBy_of_sorted hordered.sorted]
    exact (ordered_iff.mp hordered).2
  fields := by
    show (sortBy _ spec'.fields).mapM canonicalizeSpecField = .ok spec'.fields
    rw [sortBy_of_sorted hordered.sorted]
    exact h.mapM_self fun _ hfield => hfield
  fits := h.fits
  generation := rfl
  id := by
    show spec'.id = _
    rw [h.id]
    simp only [deriveSpecializationId]
  identity := by
    show spec'.identityDigest = _
    rw [h.identity]
    simp only [computeSpecializationIdentity, specializationRecord]

/-- A second pass that keeps the names keeps their order. -/
theorem ordered_of_names {generation : SpecializationGeneration}
    (h' : SpecCanonicalized { spec' with generation := generation } spec'')
    (names : spec''.fields.map (·.name) = spec'.fields.map (·.name)) :
    Ordered (·.name) spec'.fields := by
  have fields : spec''.fields = sortBy (fun a b => compare a.name b.name) spec'.fields := by
    have hfields := h'.fields
    rw [h.mapM_self fun field hfield => mem_sortBy.mp hfield] at hfields
    exact (Except.ok.inj hfields).symm
  have sorted : Ordered (·.name) spec''.fields := by
    rw [ordered_iff, fields]
    exact ⟨sortedBy_sortBy _ _, h'.distinct⟩
  have onNames : ∀ fields : List SpecField, Ordered (·.name) fields ↔
      (fields.map (·.name)).Pairwise fun a b => compare a b = .lt := fun fields => by
    rw [Ordered, List.pairwise_map]
  rw [onNames, ← names, ← onNames]
  exact sorted

end SpecCanonicalized

-- ---------------------------------------------------------------------------
-- Flags and units
-- ---------------------------------------------------------------------------

omit [HashFunction] in
/-- Canonical flags are left alone under every policy that orders them the same. -/
theorem FlagsCanonicalized.self {policy policy' : CompilePolicy} {flags flags' : List Bytes}
    (h : FlagsCanonicalized policy flags flags')
    (order : policy'.flagOrderSignificant = policy.flagOrderSignificant) :
    FlagsCanonicalized policy' flags' flags' := by
  have cleaned : ∀ flag ∈ flags', ∃ raw ∈ flags, trim raw = flag := by
    intro flag hflag
    rw [h.2] at hflag
    split at hflag
    · exact List.mem_map.mp hflag
    · exact List.mem_map.mp (mem_sortBy.mp hflag)
  have trimmed : flags'.map trim = flags' := by
    conv_rhs => rw [← List.map_id flags']
    refine List.map_congr_left fun flag hflag => ?_
    obtain ⟨raw, -, rfl⟩ := cleaned flag hflag
    exact trim_trim raw
  refine ⟨fun flag hflag => ?_, ?_⟩
  · obtain ⟨raw, hraw, rfl⟩ := cleaned flag hflag
    rw [trim_trim]
    exact h.1 raw hraw
  · rw [trimmed, order]
    split
    · rfl
    · next hsort =>
      have sorted := h.2
      rw [if_neg hsort] at sorted
      rw [sortBy_of_sorted]
      rw [sorted]
      exact sortedBy_sortBy _ _

/-- A source that needs nothing but its identity. -/
theorem canonicalizeSource_of_canonical {source : UnitSource}
    (hname : trim source.logicalName = source.logicalName)
    (hnamed : source.logicalName.isEmpty = false) (hcontent : source.content.digest.isZero = false)
    (hformat : source.format ≠ .unknown) (hlanguage : source.languageMode.isEmpty = false)
    (hfits : (unitSourceRecord source).fits = true) :
    canonicalizeSource source =
      .ok { source with identityDigest := computeUnitSourceIdentity source } := by
  rw [canonicalizeSource]
  dsimp only
  rw [hname, hnamed, hcontent, if_neg hformat, hlanguage, if_neg (by decide), if_neg (by decide),
    if_neg hformat, if_neg (by decide)]
  exact writes_bind_eq_ok_iff.mpr ⟨hfits, rfl⟩

theorem canonicalizeSource_self {source source' : UnitSource}
    (h : canonicalizeSource source = .ok source') (digest : Digest256) :
    canonicalizeSource { source' with identityDigest := digest } = .ok source' := by
  rw [canonicalizeSource] at h
  dsimp only at h
  rw [refuse_or_eq_ok_iff, refuse_or_eq_ok_iff, refuse_or_eq_ok_iff, Bool.not_eq_true,
    Bool.not_eq_true] at h
  obtain ⟨hnamed, hcontent, hformat, h⟩ := h
  rw [writes_bind_eq_ok_iff] at h
  obtain ⟨hfits, heq⟩ := h
  generalize hl : (if source.languageMode.isEmpty = true then txt "c++20"
    else source.languageMode) = language at hfits heq
  have hlanguage : language.isEmpty = false := by
    rw [← hl]
    split
    · rfl
    · next hne => exact Bool.not_eq_true _ ▸ hne
  cases heq
  exact canonicalizeSource_of_canonical (trim_trim _) hnamed hcontent hformat hlanguage hfits

theorem canonicalizeDependency_self {dep dep' : DependencyEntry}
    (h : canonicalizeDependency dep = .ok dep') :
    canonicalizeDependency dep' = .ok dep' ∧ dep'.Acceptable := by
  rw [canonicalizeDependency] at h
  dsimp only at h
  rw [refuse_or_eq_ok_iff, refuse_or_eq_ok_iff, Bool.not_eq_true, Bool.not_eq_true,
    writes_bind_eq_ok_iff] at h
  obtain ⟨hnamed, hcontent, hfits, heq⟩ := h
  cases heq
  refine ⟨?_, rfl⟩
  rw [canonicalizeDependency]
  dsimp only
  rw [trim_trim, hnamed, hcontent, if_neg (by decide), if_neg (by decide)]
  exact writes_bind_eq_ok_iff.mpr ⟨hfits, rfl⟩

namespace UnitCanonicalized

variable {policy policy' : CompilePolicy} {unit unit' : CompilationUnitSpec}
  (h : UnitCanonicalized policy unit unit')

include h

/-- The identity a unit comes with passes through. -/
theorem withIdentity (digest : Digest256) :
    UnitCanonicalized policy { unit with identityDigest := digest }
      { unit' with identityDigest := digest } where
  eq := congrArg (fun u => { u with identityDigest := digest }) h.eq
  sources := h.sources
  distinct := h.distinct
  populated := h.populated
  dependencies := h.dependencies
  flags := h.flags
  named := h.named
  linked := h.linked

theorem acceptable : ∀ dep ∈ unit'.dependencies, dep.Acceptable := by
  intro dep hdep
  obtain ⟨dependencies, hdependencies, hsorted⟩ := h.dependencies
  rw [hsorted, mem_sortBy] at hdep
  obtain ⟨raw, -, hraw⟩ := mem_of_mapM_eq_ok hdependencies hdep
  exact (canonicalizeDependency_self hraw).2

theorem source_self {source : UnitSource} (hsource : source ∈ unit'.sources) (digest : Digest256) :
    canonicalizeSource { source with identityDigest := digest } = .ok source := by
  obtain ⟨sources, hsources, hsorted⟩ := h.sources
  rw [hsorted, mem_sortBy] at hsource
  obtain ⟨raw, -, hraw⟩ := mem_of_mapM_eq_ok hsources hsource
  exact canonicalizeSource_self hraw digest

/-- A canonical unit becomes itself again, whatever identities its sources come
with. -/
theorem self_of_sources {sources : List UnitSource}
    (order : policy'.flagOrderSignificant = policy.flagOrderSignificant)
    (hsources : sources.mapM canonicalizeSource = .ok unit'.sources) :
    UnitCanonicalized policy' { unit' with sources := sources } unit' := by
  obtain ⟨before, -, hsorted⟩ := h.sources
  obtain ⟨dependencies, hdependencies, hdepsorted⟩ := h.dependencies
  have kind : unit'.kind = unit.kind := by rw [h.eq]
  have children : uniqueBy (· == ·) (sortBy compare unit'.childUnits) = unit'.childUnits := by
    rw [show unit'.childUnits = uniqueBy (· == ·) (sortBy compare unit.childUnits) by rw [h.eq]]
    exact uniqueBy_sortBy_idem _ _
  have name : trim unit'.logicalName = unit'.logicalName := by
    rw [show unit'.logicalName = trim unit.logicalName by rw [h.eq]]
    exact trim_trim _
  refine {
    eq := ?_, sources := ⟨unit'.sources, hsources, ?_⟩, distinct := h.distinct
    populated := ?_, dependencies := ⟨unit'.dependencies, ?_, ?_⟩
    flags := h.flags.self order, named := h.named, linked := ?_ }
  · show unit' = { unit' with
      childUnits := uniqueBy (· == ·) (sortBy compare unit'.childUnits)
      logicalName := trim unit'.logicalName }
    rw [children, name]
  · rw [sortBy_of_sorted]
    rw [hsorted]
    exact sortedBy_sortBy _ _
  · show (unit'.sources.isEmpty && unit'.kind != .link) = false
    rw [kind]
    exact h.populated
  · show unit'.dependencies.mapM canonicalizeDependency = .ok unit'.dependencies
    rw [mapM_eq_ok_iff]
    refine List.forall₂_same.mpr fun dep hdep => ?_
    rw [hdepsorted, mem_sortBy] at hdep
    obtain ⟨raw, -, hraw⟩ := mem_of_mapM_eq_ok hdependencies hdep
    exact (canonicalizeDependency_self hraw).1
  · rw [sortBy_of_sorted]
    rw [hdepsorted]
    exact sortedBy_sortBy _ _
  · show ¬(unit'.kind = .link ∧ unit'.childUnits = [])
    rw [kind]
    exact h.linked

theorem self (order : policy'.flagOrderSignificant = policy.flagOrderSignificant) :
    UnitCanonicalized policy' unit' unit' := by
  refine h.self_of_sources order ?_
  rw [mapM_eq_ok_iff]
  exact List.forall₂_same.mpr fun source hsource => h.source_self hsource source.identityDigest

/-- A canonical unit, stored without the identities of its sources, becomes
itself again. -/
theorem self_of_carried (order : policy'.flagOrderSignificant = policy.flagOrderSignificant) :
    UnitCanonicalized policy' unit'.carried unit' := by
  refine h.self_of_sources order ?_
  rw [List.mapM_map, mapM_eq_ok_iff]
  exact List.forall₂_same.mpr fun source hsource => h.source_self hsource default

end UnitCanonicalized

end DistributedCompilation
