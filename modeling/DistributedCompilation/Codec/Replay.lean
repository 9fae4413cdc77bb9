import DistributedCompilation.Codec.Descriptors
import DistributedCompilation.Codec.Idempotence
import DistributedCompilation.Coordinator.Submit

/-!
# Distributed Compilation — a journaled request read back

What `submit` journals is the canonical request with the generations the
registries resolved (`CompilationRequest.registered`). The decoder refuses more
than `submit` does, and canonicalizes once more: `Replayable` is the condition
under which the request comes back.
-/

namespace DistributedCompilation

open Reader Decoder

-- ---------------------------------------------------------------------------
-- What is journaled
-- ---------------------------------------------------------------------------

/-- A request with the generations of the registries. -/
def CompilationRequest.registered (c : CompilationRequest) (toolchain : ToolchainGeneration)
    (target : TargetGeneration) (specialization : SpecializationGeneration)
    (policy : CompilePolicyGeneration) (dependencies : DependencyGeneration) : CompilationRequest :=
  { c with
    toolchain := { c.toolchain with generation := toolchain }
    target := { c.target with generation := target }
    specialization := { c.specialization with generation := specialization }
    policy := { c.policy with generation := policy }
    dependencies := { c.dependencies with generation := dependencies } }

/-- The install roots of the SDK components are not carried. -/
def CompilationRequest.carried (a : CompilationRequest) : CompilationRequest :=
  { a with toolchain := a.toolchain.carried }

/-- What the decoder has read before it canonicalizes. -/
def CompilationRequest.stored (a : CompilationRequest) : CompilationRequest :=
  { a with
    toolchain := a.toolchain.carried
    environment := canonicalizeEnvironment a.environment
    units := a.units.map (·.carried) }

section

variable [HashFunction]

/-- What `register_and_check` accepted. -/
structure Registered (c a : CompilationRequest) : Prop where
  eq : a = c.registered a.toolchain.generation a.target.generation a.specialization.generation
    a.policy.generation a.dependencies.generation
  toolchain : c.toolchain.id.isZero = false
  target : c.target.id.isZero = false
  specialization : c.specialization.id.isZero = false
  policy : c.policy.id.isZero = false
  dependencies : c.dependencies.id.isZero = false

omit [HashFunction] in
theorem resolveDeclared_bind_eq_ok {tag : GenTag} {β : Type} {code : ErrorCode} {dimension : String}
    {declared : Gen tag} {resolve : State → Gen tag × State} {f : Gen tag → M β} {i : Impl} {b : β}
    (h : ((resolveDeclared code dimension declared resolve >>= f) i).1 = .ok b) :
    ∃ generation i', (f generation i').1 = .ok b := by
  rw [Program.bind_apply] at h
  cases hr : resolveDeclared code dimension declared resolve i with
  | mk out i' =>
    rw [hr] at h
    cases out with
    | error e => cases h
    | ok generation => exact ⟨generation, i', h⟩

theorem registered_of_registerAndCheck {c a : CompilationRequest} {i : Impl}
    (h : (registerAndCheck c i).1 = .ok a) : Registered c a := by
  rw [registerAndCheck] at h
  split at h
  · cases h
  · next hids =>
    simp only [not_or, Bool.not_eq_true] at hids
    obtain ⟨htoolchain, htarget, hspecialization, hpolicy, hdependencies⟩ := hids
    obtain ⟨toolchain, i, h⟩ := resolveDeclared_bind_eq_ok h
    obtain ⟨target, i, h⟩ := resolveDeclared_bind_eq_ok h
    obtain ⟨specialization, i, h⟩ := resolveDeclared_bind_eq_ok h
    obtain ⟨policy, i, h⟩ := resolveDeclared_bind_eq_ok h
    obtain ⟨dependencies, i, h⟩ := resolveDeclared_bind_eq_ok h
    cases h
    exact ⟨rfl, htoolchain, htarget, hspecialization, hpolicy, hdependencies⟩

/-- What the decoder demands of fields that canonicalization leaves alone: a
request id, no binary that is known by a zero digest, and values within the
decoder's bounds. -/
abbrev CompilationRequest.Bounded (a : CompilationRequest) : Prop :=
  a.requestId.isZero = false ∧
    (a.toolchain.compiler.Acceptable ∧ a.toolchain.linker.Acceptable ∧
      a.toolchain.assembler.Acceptable ∧ a.toolchain.runtimeLibrary.Acceptable) ∧
    (¬(a.policy.maxAttemptsPerUnit = 0 ∨ 64 < a.policy.maxAttemptsPerUnit) ∧
      ¬4096 < a.policy.negativeCacheMaxEntries) ∧
    a.validation.Acceptable

/-- The request `a` journaled for the submitted `r` comes back: its fields are
within bounds, trimming left the specialization fields and the environment
variables in order, and the client supplied the right identity for every child
that is listed below its own index. -/
structure Replayable (r a : CompilationRequest) : Prop where
  bounded : a.Bounded
  fields : Ordered (·.name) a.specialization.fields
  vars : SortedBy compareConfig a.environment.vars
  children : ∀ p q, a.Lists p q → p < q → r.identityOf q = a.identityOf q

omit [HashFunction] in
theorem decodeWhole_eq {α : Type} {d : Reader α} {payload : Bytes} {a? : Option α}
    (h : d.parse payload = a?.map (·, [])) : decodeWhole d payload = a? := by
  rw [decodeWhole]
  cases a? with
  | none =>
    cases hr : d.run payload with
    | error e => rfl
    | ok p => rw [Decoder.parse, hr] at h; cases h
  | some a => rw [Decoder.run_of_parse h]

-- ---------------------------------------------------------------------------
-- The parts of a journaled request
-- ---------------------------------------------------------------------------

section Parts

variable {r c a : CompilationRequest} (h : Canonicalized r c) (hreg : Registered c a)

include h hreg

theorem toolchain_canonical : a.toolchain.Canonical := by
  rw [hreg.eq]
  exact h.toolchain_canonical.withGeneration _

theorem target_canonical : a.target.Canonical := by
  rw [hreg.eq]
  exact ⟨h.target_canonical.1, h.target_canonical.2⟩

theorem policy_canonical :
    a.policy.id = derivePolicyId a.policy ∧
      a.policy.identityDigest = computePolicyIdentity a.policy := by
  rw [hreg.eq]
  exact ⟨h.policy_canonical.1, h.policy_canonical.2⟩

theorem dependencies_canonical : a.dependencies.Canonical := by
  rw [hreg.eq]
  exact h.dependencies_canonical.withGeneration _

theorem environment_eq : a.environment = canonicalizeEnvironment r.environment := by
  rw [hreg.eq]
  exact h.environment_eq

omit [HashFunction] h in
/-- The units are journaled as they were identified. -/
theorem units_eq : a.units = c.units := by
  rw [hreg.eq]
  rfl

theorem order_eq : a.policy.flagOrderSignificant = r.policy.flagOrderSignificant := by
  rw [hreg.eq]
  exact h.order_eq

theorem rereadToolchain_eq :
    rereadToolchain a.toolchain =
      if a.toolchain.compiler.Acceptable ∧ a.toolchain.linker.Acceptable ∧
          a.toolchain.assembler.Acceptable ∧ a.toolchain.runtimeLibrary.Acceptable then
        some a.toolchain.carried
      else none := by
  have canonical := toolchain_canonical h hreg
  have id : a.toolchain.id.isZero = false := by
    rw [hreg.eq]
    exact hreg.toolchain
  rw [rereadToolchain, canonical.carried.fixed, if_pos (show a.toolchain.identityDigest =
    a.toolchain.carried.identityDigest from rfl)]
  simp only [id, true_and]

theorem rereadTarget_eq : rereadTarget a.target = some a.target := by
  have canonical := target_canonical h hreg
  have id : a.target.id.isZero = false := by
    rw [hreg.eq]
    exact hreg.target
  rw [rereadTarget, if_pos ⟨id, canonical.1, canonical.2⟩]

theorem rereadPolicy_eq :
    rereadPolicy a.policy =
      if ¬(a.policy.maxAttemptsPerUnit = 0 ∨ 64 < a.policy.maxAttemptsPerUnit) ∧
          ¬4096 < a.policy.negativeCacheMaxEntries then some a.policy else none := by
  obtain ⟨hid, hdigest⟩ := policy_canonical h hreg
  have id : a.policy.id.isZero = false := by
    rw [hreg.eq]
    exact hreg.policy
  rw [rereadPolicy, ← hid, ← hdigest]
  simp only [id, true_and, and_true]

theorem rereadDependencySet_eq : rereadDependencySet a.dependencies = some a.dependencies := by
  have canonical := dependencies_canonical h hreg
  have id : a.dependencies.id.isZero = false := by
    rw [hreg.eq]
    exact hreg.dependencies
  rw [rereadDependencySet, canonical.fixed, if_pos ⟨id, canonical.acceptable, rfl⟩]

theorem mapM_rereadUnitSpec : a.units.mapM rereadUnitSpec = some (a.units.map (·.carried)) := by
  have each : ∀ unit ∈ a.units, rereadUnitSpec unit = some unit.carried := by
    intro unit hunit
    obtain ⟨raw, hraw⟩ := h.unit_canonical (units_eq hreg ▸ hunit)
    rw [rereadUnitSpec, if_pos hraw.acceptable]
  generalize a.units = units at each
  induction units with
  | nil => rfl
  | cons unit units ih =>
    rw [List.mapM_cons, each unit List.mem_cons_self,
      ih fun u hu => each u (List.mem_cons_of_mem _ hu)]
    rfl

/-- The decoder, with everything that cannot fail left out. -/
theorem rereadRequest_eq :
    rereadRequest a =
      if a.Bounded then
        (rereadSpecialization a.specialization).bind fun specialization =>
          recheck { a.stored with specialization }
      else none := by
  rw [rereadRequest, rereadToolchain_eq h hreg, rereadTarget_eq h hreg, rereadPolicy_eq h hreg,
    rereadDependencySet_eq h hreg, mapM_rereadUnitSpec h hreg]
  by_cases hid : a.requestId.isZero = false
  · rw [if_pos hid]
    by_cases hbinaries : a.toolchain.compiler.Acceptable ∧ a.toolchain.linker.Acceptable ∧
        a.toolchain.assembler.Acceptable ∧ a.toolchain.runtimeLibrary.Acceptable
    · rw [if_pos hbinaries]
      by_cases hpolicy : ¬(a.policy.maxAttemptsPerUnit = 0 ∨ 64 < a.policy.maxAttemptsPerUnit) ∧
          ¬4096 < a.policy.negativeCacheMaxEntries
      · rw [if_pos hpolicy]
        by_cases hvalidation : a.validation.Acceptable
        · simp only [if_pos hvalidation]
          rw [if_pos (show a.Bounded from ⟨hid, hbinaries, hpolicy, hvalidation⟩)]
          rfl
        · simp only [if_neg hvalidation]
          rw [if_neg fun hall : a.Bounded => hvalidation hall.2.2.2]
          cases rereadSpecialization a.specialization <;> rfl
      · rw [if_neg hpolicy, if_neg fun hall : a.Bounded => hpolicy hall.2.2.1]
        cases rereadSpecialization a.specialization <;> rfl
    · rw [if_neg hbinaries, if_neg fun hall : a.Bounded => hbinaries hall.2.1]
      rfl
  · rw [if_neg hid, if_neg fun hall : a.Bounded => hid hall.1]

/-- With the right identities supplied, the journaled units are their own
identification. -/
theorem identified_carried (children : ∀ p q, a.Lists p q → p < q → r.identityOf q = a.identityOf q) :
    Identified a.carried a.units a.units := by
  have hself := h.identified_self (show ∀ p q, c.Lists p q → p < q → r.identityOf q = c.identityOf q by
    rw [hreg.eq] at children
    exact children)
  rw [units_eq hreg]
  refine hself.of_header ?_
  rw [hreg.eq]
  rfl

/-- The stored units, sorted and canonicalized. -/
theorem laid_stored {units : List CompilationUnitSpec} {policy : CompilePolicy}
    (hstored : units = a.units.map (·.carried))
    (order : policy.flagOrderSignificant = r.policy.flagOrderSignificant) :
    canonicalizeUnits policy 0 (sortBy (fun a b => compare a.index b.index) units) = .ok a.units := by
  rw [hstored, units_eq hreg]
  refine h.laid_of (List.forall₂_map_left_iff.mpr (List.forall₂_same.mpr fun unit hunit => ?_))
  obtain ⟨raw, hraw⟩ := h.unit_canonical hunit
  exact hraw.self_of_carried order

/-- A replayable request is read back from its stored form. -/
theorem canonicalized_stored (hreplay : Replayable r a) : Canonicalized a.stored a.carried := by
  have toolchain := (toolchain_canonical h hreg).carried.fixed
  have target := target_canonical h hreg
  have policy := policy_canonical h hreg
  have dependencies := (dependencies_canonical h hreg).fixed
  have environment : canonicalizeEnvironment (canonicalizeEnvironment a.environment) =
      a.environment := by
    have hvars := hreplay.vars
    rw [environment_eq h hreg] at hvars ⊢
    have fixed := (canonicalizeEnvironment_self_iff r.environment).mpr hvars
    rw [fixed, fixed]
  have fits : ∀ {record record' : Record}, record.fits = true → record = record' →
      record'.fits = true := fun hfits heq => heq ▸ hfits
  have request : requestRecord a.carried = requestRecord c := by
    rw [hreg.eq]
    rfl
  have order := order_eq h hreg
  have flags : FlagsCanonicalized a.policy a.flags a.flags := by
    have hflags := (canonicalizeFlags_eq_ok_iff.mp h.flags).self order
    rwa [show a.flags = c.flags by rw [hreg.eq]; rfl]
  have hspec := h.specialization_canonical.self_of_ordered (by
    have hfields := hreplay.fields
    rwa [show a.specialization.fields = c.specialization.fields by rw [hreg.eq]; rfl] at hfields)
    a.specialization.generation
  refine {
    eq := ?_
    toolchainId_fits := fits h.toolchainId_fits (by rw [hreg.eq]; rfl)
    toolchain_fits := ?_
    family := ?_
    toolchain_present := ?_
    target_fits := fits h.target_fits (by rw [hreg.eq]; rfl)
    concrete := ?_
    specialization := ?_
    dependencies_fits := fits h.dependencies_fits (by rw [hreg.eq]; rfl)
    environment_fits := fits h.environment_fits (by rw [hreg.eq]; rfl)
    flags := canonicalizeFlags_eq_ok_iff.mpr flags
    nonempty := ?_
    policy_fits := fits h.policy_fits (by rw [hreg.eq]; rfl)
    units := ⟨a.units, ⟨laid_stored h hreg rfl order, units_eq hreg ▸ h.checkChildren_units⟩,
      identified_carried h hreg hreplay.children⟩
    request_fits := request ▸ h.request_fits
    requestIdentity := ?_ }
  · have concrete : canonicalizeTarget a.target = a.target := by
      rw [canonicalizeTarget, ← target.1]
    show a.carried = { a.carried with
      toolchain := canonicalizeToolchain a.toolchain.carried
      target := { canonicalizeTarget a.target with id := deriveTargetId (canonicalizeTarget a.target) }
      policy := { a.policy with
        id := derivePolicyId a.policy, identityDigest := computePolicyIdentity a.policy }
      dependencies := canonicalizeDependencySet a.dependencies
      environment := canonicalizeEnvironment (canonicalizeEnvironment a.environment) }
    rw [toolchain, concrete, ← target.2, ← policy.1, ← policy.2, dependencies, environment]
    rfl
  · show (toolchainRecord a.toolchain.carried).fits = true
    rw [toolchainRecord_carried]
    exact fits h.toolchain_fits (by rw [hreg.eq]; rfl)
  · show a.toolchain.family ≠ .unknown
    rw [hreg.eq]
    exact h.family
  · show a.toolchain.identityDigest.isZero = false
    rw [hreg.eq]
    exact h.toolchain_present
  · show (a.target.identityDigest.isZero || a.target.arch == .unknown) = false
    rw [hreg.eq]
    exact h.concrete
  · show canonicalizeSpecialization a.specialization = .ok a.specialization
    rw [canonicalizeSpecialization_eq_ok_iff]
    rwa [show a.specialization = { c.specialization with
      generation := a.specialization.generation } from congrArg (·.specialization) hreg.eq]
  · show (a.units.map _).isEmpty = false
    rw [List.isEmpty_map, units_eq hreg]
    exact h.units_nonempty
  · rw [deriveRequestIdentity, request, ← deriveRequestIdentity, ← h.requestIdentity]
    show a.requestIdentity = c.requestIdentity
    rw [hreg.eq]
    rfl

end Parts

-- ---------------------------------------------------------------------------
-- Records that say what they are about
-- ---------------------------------------------------------------------------

omit [HashFunction] in
theorem vars_eq_of_bytes {env env' : EnvironmentContract} (h : (environmentRecord env).fits = true)
    (h' : (environmentRecord env').fits = true)
    (heq : (environmentRecord env).bytes = (environmentRecord env').bytes) : env.vars = env'.vars := by
  have read := parse_readContractRecord env [] (Record.eachFits_of_fits h)
  rw [heq, parse_readContractRecord env' [] (Record.eachFits_of_fits h')] at read
  exact congrArg EnvironmentContract.vars (Prod.mk.inj (Option.some.inj read)).1.symm

omit [HashFunction] in
theorem names_eq_of_bytes {spec spec' : SpecializationSpec}
    (h : (specializationRecord spec).fits = true) (h' : (specializationRecord spec').fits = true)
    (heq : (specializationRecord spec).bytes = (specializationRecord spec').bytes) :
    spec.fields.map (·.name) = spec'.fields.map (·.name) := by
  have read := parse_readSpecRecord spec [] (Record.eachFits_of_fits h)
  rw [heq, parse_readSpecRecord spec' [] (Record.eachFits_of_fits h')] at read
  have hwritten := congrArg SpecializationSpec.fields (Prod.mk.inj (Option.some.inj read)).1.symm
  have names (fields : List SpecField) : (fields.map SpecField.written).map (·.name) = fields.map (·.name) := by
    rw [List.map_map]
    refine List.map_congr_left fun field _ => ?_
    show field.written.name = field.name
    unfold SpecField.written
    split <;> rfl
  rw [← names spec.fields, ← names spec'.fields]
  exact congrArg (List.map (·.name)) hwritten

-- ---------------------------------------------------------------------------
-- The journaled request and what comes back
-- ---------------------------------------------------------------------------

/-- The records whose hashes are compared when `a`, journaled for `r`, is read
back. -/
def hashedOnReplay (r a : CompilationRequest) : List Bytes :=
  hashedUnits r ++ hashedUnits a.stored ++
    [(environmentRecord a.environment).bytes,
      (environmentRecord (canonicalizeEnvironment a.stored.environment)).bytes,
      (specializationRecord a.specialization).bytes] ++
    ((canonicalizeSpecialization a.specialization).toOption.map
      fun spec => (specializationRecord spec).bytes).toList

/-- No two of these records collide. -/
def ReplayCollisionFree (r a : CompilationRequest) : Prop :=
  Set.InjOn sha256 { bytes | bytes ∈ hashedOnReplay r a }

section Necessity

variable {r c a : CompilationRequest} (hr : canonicalize r = .ok c) (hreg : Registered c a)
  (hfree : ReplayCollisionFree r a)

include hr hreg hfree

/-- A specialization that is read back was in order. -/
theorem ordered_of_reread {spec : SpecializationSpec}
    (h : rereadSpecialization a.specialization = some spec) :
    Ordered (·.name) a.specialization.fields ∧ spec = a.specialization := by
  have hc := (canonicalize_eq_ok_iff r c).mp hr
  have hspec := hc.specialization_canonical
  have value : a.specialization = { c.specialization with
      generation := a.specialization.generation } := congrArg (·.specialization) hreg.eq
  rw [rereadSpecialization] at h
  split at h
  · split at h
    · cases h
    · next spec' hok =>
      split at h
      · next hdigest =>
        cases h
        have hspec' := canonicalizeSpecialization_eq_ok_iff.mp hok
        have identity : a.specialization.identityDigest = (specializationRecord a.specialization).hash := by
          rw [value]
          exact hspec.identity
        have bytes : (specializationRecord spec).bytes =
            (specializationRecord a.specialization).bytes := by
          refine hfree ?_ ?_ (hspec'.identity.symm.trans (hdigest.symm.trans identity))
          · refine List.mem_append_right _ ?_
            rw [hok]
            exact List.mem_singleton_self _
          · exact List.mem_append_left _ (List.mem_append_right _ (by simp))
        have hfits : (specializationRecord a.specialization).fits = true := by
          rw [value]
          exact hspec.fits
        have names := names_eq_of_bytes hspec'.fits hfits bytes
        rw [value] at hspec' names ⊢
        have hordered := hspec.ordered_of_names hspec' names
        refine ⟨hordered, ?_⟩
        have hself := canonicalizeSpecialization_eq_ok_iff.mpr
          (hspec.self_of_ordered hordered a.specialization.generation)
        rw [canonicalizeSpecialization_eq_ok_iff.mpr hspec'] at hself
        exact Except.ok.inj hself
      · cases h
  · cases h

/-- A request whose identities are confirmed on the way back was in order, and
its client supplied the right identities. -/
theorem replayable_of_recheck {b : CompilationRequest} (h : recheck a.stored = some b) :
    SortedBy compareConfig a.environment.vars ∧
      ∀ p q, a.Lists p q → p < q → r.identityOf q = a.identityOf q := by
  have hc := (canonicalize_eq_ok_iff r c).mp hr
  obtain ⟨before, hlaid, hidentified⟩ := hc.units
  rw [recheck] at h
  split at h
  · cases h
  next hok =>
  split at h
  case isFalse => cases h
  next hids =>
  cases h
  have hb := (canonicalize_eq_ok_iff a.stored b).mp hok
  obtain ⟨units, hlaid', hidentified'⟩ := hb.units
  have hunits : units = a.units := by
    have laid := hlaid'.canonical
    rw [show a.stored.policy = a.policy from rfl, laid_stored hc hreg
      (show a.stored.units = a.units.map (·.carried) from rfl) (order_eq hc hreg)] at laid
    exact (Except.ok.inj laid).symm
  subst hunits
  have hunits := units_eq hreg
  rw [hunits] at hidentified' hlaid'
  have same : b.units.map (·.identityDigest) = c.units.map (·.identityDigest) := by
    rw [← hunits, ← hids.2]
    show (a.units.map (·.carried)).map (·.identityDigest) = _
    rw [List.map_map]
    rfl
  obtain ⟨body, children⟩ := hc.children_of_identified hlaid hidentified hidentified' same hfree
    (fun i hi => List.mem_append_left _ (List.mem_append_left _ (List.mem_append_left _
      (mem_hashedUnits hr hlaid hi))))
    fun i hi => List.mem_append_left _ (List.mem_append_left _ (List.mem_append_right _
      (mem_hashedUnits hok hlaid' hi)))
  constructor
  · have hpos : 0 < c.units.length := by
      rw [List.length_pos_iff, ← List.isEmpty_eq_false_iff]
      exact hc.units_nonempty
    have environment : computeEnvironmentIdentity c.environment =
        computeEnvironmentIdentity b.environment :=
      congrArg UnitBody.environment (body 0 (hidentified.length_eq ▸ hpos) hpos)
    have hcenv : c.environment = a.environment := by rw [hreg.eq]; rfl
    have hdenv : b.environment = canonicalizeEnvironment a.stored.environment := hb.environment_eq
    have bytes : (environmentRecord c.environment).bytes = (environmentRecord b.environment).bytes := by
      refine hfree ?_ ?_ environment
      · rw [hcenv]
        exact List.mem_append_left _ (List.mem_append_right _ (by simp))
      · rw [hdenv]
        exact List.mem_append_left _ (List.mem_append_right _ (by simp))
    have vars := vars_eq_of_bytes hc.environment_fits hb.environment_fits bytes
    rw [hcenv, hdenv] at vars
    rw [vars, show a.stored.environment = canonicalizeEnvironment a.environment from rfl,
      vars_canonicalizeEnvironment_self]
    exact (sortedBy_sortBy _ _).sublist (uniqueBy_sublist _ _)
  · rw [hreg.eq]
    exact children

end Necessity

/-- What `decode_request_record` makes of the record of an accepted request. -/
theorem decodeWhole_encodeRequest {a : CompilationRequest} (hfits : (encodeRequest a).fits = true) :
    decodeWhole decodeRequest (encodeRequest a).bytes = rereadRequest a := by
  refine decodeWhole_eq ?_
  rw [← List.append_nil (encodeRequest a).bytes]
  exact parse_decodeRequest a [] (Record.eachFits_of_fits hfits)

end

-- ---------------------------------------------------------------------------
-- One unit, with and without a time limit
-- ---------------------------------------------------------------------------

/-- A single compile unit; `timeout` bounds its smoke test. -/
def compileRequest (timeout : UInt32) : CompilationRequest where
  requestId := ⟨1⟩
  toolchain := { family := .gnu, versionString := txt "13" }
  target := { os := .linux, arch := .x86_64 }
  validation := { smokeTimeoutMs := timeout }
  units := [{ logicalName := txt "a", sources := [
    { logicalName := txt "a.cpp", content := { digest := .filled 1, size := 1 } }] }]

/-- A fresh coordinator accepts and journals a request without specialization
fields, variables and children, and its fields are within the decoder's bounds
or not, as `bounded` tells. -/
def acceptsPlain (r : CompilationRequest) (bounded : Bool) : Bool :=
  match canonicalize r with
  | .error _ => false
  | .ok c =>
    match (registerAndCheck c {}).1 with
    | .error _ => false
    | .ok a => (encodeRequest a).fits && decide a.Bounded == bounded &&
        a.specialization.fields.isEmpty && a.environment.vars.isEmpty &&
        a.units.all (·.childUnits.isEmpty)

theorem acceptsPlain_elim {r : CompilationRequest} {bounded : Bool}
    (h : acceptsPlain r bounded = true) :
    ∃ c a, canonicalize r = .ok c ∧ (registerAndCheck c {}).1 = .ok a ∧
      (encodeRequest a).fits = true ∧ (a.Bounded ↔ bounded = true) ∧
      (bounded = true → Replayable r a) := by
  rw [acceptsPlain] at h
  split at h
  · cases h
  next c hr =>
  split at h
  · cases h
  next a hreg =>
  simp only [Bool.and_eq_true, beq_iff_eq, List.isEmpty_iff, List.all_eq_true] at h
  obtain ⟨⟨⟨⟨hfits, hbounded⟩, hfields⟩, hvars⟩, hchildren⟩ := h
  have iff : a.Bounded ↔ bounded = true := by rw [← hbounded, decide_eq_true_eq]
  refine ⟨c, a, hr, hreg, hfits, iff, fun hb => ⟨iff.mpr hb, ?_, ?_, ?_⟩⟩
  · rw [hfields]
    exact .nil
  · rw [hvars]
    exact .nil
  · rintro p q ⟨unit, hfind, hq⟩
    rw [hchildren unit (List.mem_of_find?_eq_some hfind)] at hq
    exact absurd hq List.not_mem_nil

end DistributedCompilation
