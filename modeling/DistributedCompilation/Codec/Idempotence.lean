import DistributedCompilation.Base.Evaluation
import DistributedCompilation.Codec.FixedPoints
import DistributedCompilation.Codec.UnitRecord

/-!
# Distributed Compilation — canonicalizing twice

`decode_request`, `submit` and the workers canonicalize what was canonicalized
before and compare the identities. `canonicalize_self_iff` says when the second
pass changes nothing: trimming left the specialization fields and the
environment variables in the order they were sorted in, and the client supplied
the right identity for every child that is listed below its own index.
-/

namespace DistributedCompilation

-- ---------------------------------------------------------------------------
-- Names that stay in order
-- ---------------------------------------------------------------------------

/-- Sorted by their names, the fields have strictly increasing trimmed names. -/
def SpecializationSpec.TrimsInOrder (spec : SpecializationSpec) : Prop :=
  Ordered (fun field => trim field.name) (sortBy (fun a b => compare a.name b.name) spec.fields)

/-- Sorted by their names, the variables are sorted by their trimmed names. -/
def EnvironmentContract.TrimsInOrder (env : EnvironmentContract) : Prop :=
  SortedBy compareConfig ((sortBy compareConfig env.vars).map fun kv => (trim kv.1, kv.2))

theorem EnvironmentContract.trimsInOrder_iff (env : EnvironmentContract) :
    env.TrimsInOrder ↔ SortedBy compareConfig (canonicalizeEnvironment env).vars :=
  (sortedBy_uniqueBy_iff fun a b h => by
    show compare a.1 b.1 = .eq
    rw [beq_iff_eq.mp h]
    exact Std.ReflOrd.compare_self).symm

section

variable [HashFunction]

theorem SpecCanonicalized.trimsInOrder_iff {spec spec' : SpecializationSpec}
    (h : SpecCanonicalized spec spec') : spec.TrimsInOrder ↔ Ordered (·.name) spec'.fields := by
  have fields : spec'.fields = (sortBy (fun a b => compare a.name b.name) spec.fields).map
      fun field => { field with name := trim field.name } := by
    have hfields := mapM_eq_ok_iff.mp h.fields
    generalize spec'.fields = fields, sortBy _ spec.fields = sorted at hfields ⊢
    induction hfields with
    | nil => rfl
    | cons hfield _ ih => rw [List.map_cons, ← ih, (canonicalizeSpecField_eq_ok_iff.mp hfield).2]
  rw [fields, Ordered, List.pairwise_map]
  rfl

/-- A second pass over a specialization. -/
theorem SpecCanonicalized.self_iff {spec spec' : SpecializationSpec}
    (h : SpecCanonicalized spec spec') :
    canonicalizeSpecialization spec' = .ok spec' ↔ spec.TrimsInOrder := by
  rw [h.trimsInOrder_iff, canonicalizeSpecialization_eq_ok_iff]
  constructor
  · intro h'
    exact @SpecCanonicalized.ordered_of_names _ _ _ _ h spec'.generation h' rfl
  · intro hordered
    exact h.self_of_ordered hordered spec'.generation

-- ---------------------------------------------------------------------------
-- Capabilities
-- ---------------------------------------------------------------------------

theorem canonicalizeTarget_self (target : TargetIdentity) :
    canonicalizeTarget (canonicalizeTarget target) = canonicalizeTarget target := by
  simp only [canonicalizeTarget, computeTargetIdentity, targetRecord]

/-- Sorting what was made canonical and sorted. -/
theorem sortBy_map_self {α : Type} (cmp : α → α → Ordering) [Std.TransCmp cmp] {f : α → α}
    (hf : ∀ a, f (f a) = f a) (xs : List α) :
    sortBy cmp ((sortBy cmp (xs.map f)).map f) = sortBy cmp (xs.map f) := by
  have mapped : (sortBy cmp (xs.map f)).map f = sortBy cmp (xs.map f) := by
    conv_rhs => rw [← List.map_id (sortBy cmp (xs.map f))]
    refine List.map_congr_left fun a ha => ?_
    obtain ⟨raw, -, rfl⟩ := List.mem_map.mp (mem_sortBy.mp ha)
    exact hf raw
  rw [mapped, sortBy_of_sorted (sortedBy_sortBy cmp _)]

/-! The comparisons of `canonicalize(capabilities)`. -/

private abbrev compareToolchain (a b : ToolchainIdentity) : Ordering :=
  compare a.identityDigest b.identityDigest

private abbrev compareTarget (a b : TargetIdentity) : Ordering :=
  compare a.identityDigest b.identityDigest

private abbrev compareFormat (a b : InputFormat) : Ordering :=
  compare (WireEnum.code a) (WireEnum.code b)

instance : Std.TransCmp compareToolchain :=
  inferInstanceAs (Std.TransCmp (compareOn ToolchainIdentity.identityDigest))

instance : Std.TransCmp compareTarget :=
  inferInstanceAs (Std.TransCmp (compareOn TargetIdentity.identityDigest))

instance : Std.TransCmp compareFormat :=
  inferInstanceAs (Std.TransCmp (compareOn fun format : InputFormat => WireEnum.code format))

theorem canonicalizeCapabilities_self (caps : WorkerCapabilities) :
    canonicalizeCapabilities (canonicalizeCapabilities caps) = canonicalizeCapabilities caps := by
  have toolchains := sortBy_map_self compareToolchain
    (fun toolchain => (canonical_canonicalizeToolchain toolchain).fixed) caps.toolchains
  have targets := sortBy_map_self compareTarget canonicalizeTarget_self caps.targets
  have formats := @uniqueBy_sortBy_idem _ compareFormat _ (· == ·) caps.inputFormats
  have plugins := sortBy_of_sorted (sortedBy_sortBy comparePlugin caps.plugins)
  have sdks := sortBy_of_sorted (sortedBy_sortBy compareSdk caps.sdks)
  simp only [canonicalizeCapabilities, toolchains, targets, formats, plugins, sdks,
    computeCapabilityIdentity, capabilityRecord]

theorem tryCanonicalizeCapabilities_self {caps caps' : WorkerCapabilities}
    (h : tryCanonicalizeCapabilities caps = .ok caps') :
    tryCanonicalizeCapabilities caps' = .ok caps' := by
  rw [tryCanonicalizeCapabilities] at h ⊢
  simp only [bind_eq_ok_iff] at h ⊢
  obtain ⟨u, htoolchains, v, htargets, w, hcaps, heq⟩ := h
  obtain rfl : canonicalizeCapabilities caps = caps' := Except.ok.inj heq
  rw [canonicalizeCapabilities_self]
  exact ⟨u, htoolchains, v, htargets, w, hcaps, rfl⟩

-- ---------------------------------------------------------------------------
-- The parts of a canonical request
-- ---------------------------------------------------------------------------

/-- Which units are identified, and how, depends on what the units share. -/
theorem Identified.of_header {request request' : CompilationRequest}
    {before after : List CompilationUnitSpec}
    (header : unitBody request {} = unitBody request' {}) (h : Identified request before after) :
    Identified request' before after := by
  have record : ∀ i unit, unitRecord (identifiedIn request before after i) unit =
      unitRecord (identifiedIn request' before after i) unit := by
    intro i unit
    refine unitRecord_eq_of_body ?_
    simp only [unitBody, UnitBody.mk.injEq] at header
    simp only [unitBody, identifiedIn, header]
    rfl
  refine ⟨h.length_eq, fun i hi => ?_, fun i hi => ?_⟩
  · rw [← record]
    exact h.written i hi
  · rw [CompilationUnitSpec.identified, deriveUnitIdentity, ← record]
    exact h.assigned i hi

/-- Between its canonical form and its identification a unit only gets its
identity. -/
theorem Identified.unit_eq {request : CompilationRequest} {before after : List CompilationUnitSpec}
    (h : Identified request before after) {i : Nat} (hi : i < before.length)
    (hi' : i < after.length) :
    after[i] = { before[i] with identityDigest := after[i].identityDigest } := by
  rw [h.getElem hi hi']
  rfl

/-- An identified unit is about what it was about when it was identified, once
the children it is identified with are the same. -/
theorem Identified.unitBody_self {c : CompilationRequest} {before after : List CompilationUnitSpec}
    (h : Identified c before after) {i : Nat} (hi : i < before.length) (hi' : i < after.length)
    (children : ∀ q ∈ before[i].childUnits,
      (identifiedIn c after after i).child q = (identifiedIn c before after i).child q) :
    unitBody (identifiedIn c after after i) after[i] =
      unitBody (identifiedIn c before after i) before[i] := by
  rw [h.unit_eq hi hi']
  simp only [unitBody, UnitBody.mk.injEq, identifiedIn, true_and, and_true]
  exact List.map_congr_left children

namespace Canonicalized

variable {r c : CompilationRequest} (h : Canonicalized r c)

include h

theorem toolchain_canonical : c.toolchain.Canonical := by
  rw [h.toolchain_eq]
  exact canonical_canonicalizeToolchain _

theorem target_canonical : c.target.Canonical := by
  have ht := h.target_eq
  constructor
  · rw [ht]
    show computeTargetIdentity _ = computeTargetIdentity _
    simp only [computeTargetIdentity, canonicalizeTarget, targetRecord, writeAccelerator]
  · rw [ht]
    show deriveTargetId _ = deriveTargetId _
    simp only [deriveTargetId]

theorem policy_canonical :
    c.policy.id = derivePolicyId c.policy ∧
      c.policy.identityDigest = computePolicyIdentity c.policy := by
  have hp := h.policy_eq
  constructor
  · rw [hp]
    show derivePolicyId _ = derivePolicyId _
    simp only [derivePolicyId]
  · rw [hp]
    show computePolicyIdentity _ = computePolicyIdentity _
    simp only [computePolicyIdentity, policyRecord]

theorem dependencies_canonical : c.dependencies.Canonical := by
  rw [h.dependencies_eq]
  exact canonical_canonicalizeDependencySet _

theorem specialization_canonical : SpecCanonicalized r.specialization c.specialization :=
  canonicalizeSpecialization_eq_ok_iff.mp h.specialization

theorem order_eq : c.policy.flagOrderSignificant = r.policy.flagOrderSignificant := by
  rw [h.policy_eq]

theorem dense_units : Dense c.units := by
  obtain ⟨before, hlaid, hidentified⟩ := h.units
  exact hidentified.dense hlaid.dense

/-- A canonical unit is the canonical form of a submitted one. -/
theorem unit_canonical {unit : CompilationUnitSpec} (hunit : unit ∈ c.units) :
    ∃ raw, UnitCanonicalized r.policy raw unit := by
  obtain ⟨before, hlaid, hidentified⟩ := h.units
  obtain ⟨i, hi, rfl⟩ := List.getElem_of_mem hunit
  have hi' : i < before.length := hidentified.length_eq ▸ hi
  obtain ⟨-, hunits⟩ := canonicalizeUnits_eq_ok_iff.mp hlaid.canonical
  have hget := hunits.get (hunits.length_eq ▸ hi') hi'
  rw [hidentified.getElem hi']
  exact ⟨_, (canonicalizeUnit_eq_ok_iff.mp hget).withIdentity _⟩

theorem units_nonempty : c.units.isEmpty = false := by
  obtain ⟨before, hlaid, hidentified⟩ := h.units
  have hlen : c.units.length = r.units.length := by rw [hidentified.length_eq, hlaid.length_eq]
  have hnonempty := h.nonempty
  rw [List.isEmpty_eq_false_iff, ← List.length_pos_iff] at hnonempty ⊢
  rw [hlen]
  exact hnonempty

theorem checkChildren_units :
    ∀ unit ∈ c.units, checkChildren c.units.length unit.index unit.childUnits = .ok () := by
  obtain ⟨before, hlaid, hidentified⟩ := h.units
  intro unit hunit
  obtain ⟨i, hi, rfl⟩ := List.getElem_of_mem hunit
  have hi' : i < before.length := hidentified.length_eq ▸ hi
  rw [hidentified.unit_eq hi' hi, hidentified.length_eq]
  show checkChildren before.length before[i].index before[i].childUnits = .ok ()
  exact hlaid.children _ (List.getElem_mem _)

/-- Units that become the canonical ones one by one do so as a list. -/
theorem laid_of {policy : CompilePolicy} {units : List CompilationUnitSpec}
    (hunits : List.Forall₂ (fun unit unit' => UnitCanonicalized policy unit unit') units c.units) :
    canonicalizeUnits policy 0 (sortBy (fun a b => compare a.index b.index) units) =
      .ok c.units := by
  have hdense := h.dense_units
  have index : ∀ i, ∀ hi : i < units.length, units[i].index.toNat = i := by
    intro i hi
    have hi' := hunits.length_eq ▸ hi
    have hget : UnitCanonicalized policy units[i] c.units[i] := hunits.get hi hi'
    rw [← (canonicalizeUnit_eq_ok (canonicalizeUnit_eq_ok_iff.mpr hget)).1]
    exact hdense i hi'
  have sorted : SortedBy (fun a b : CompilationUnitSpec => compare a.index b.index) units := by
    rw [SortedBy, List.pairwise_iff_getElem]
    intro i j hi hj hij
    rw [Std.isLE_compare, UInt32.le_iff_toNat_le, index i hi, index j hj]
    omega
  rw [sortBy_of_sorted sorted, canonicalizeUnits_eq_ok_iff]
  constructor
  · intro i hi
    rw [Nat.zero_add]
    exact index i hi
  · exact hunits.imp fun _ _ hunit => canonicalizeUnit_eq_ok_iff.mpr hunit

/-- With the right identities supplied, the units are their own identification. -/
theorem identified_self
    (children : ∀ p q, c.Lists p q → p < q → r.identityOf q = c.identityOf q) :
    Identified c c.units c.units := by
  obtain ⟨before, hlaid, hidentified⟩ := h.units
  have hdense := h.dense_units
  have hlen := hidentified.length_eq
  have body : ∀ i, ∀ hi : i < c.units.length, ∀ hi' : i < before.length,
      unitBody (identifiedIn c c.units c.units i) c.units[i] =
        unitBody (identifiedIn c before c.units i) before[i] := by
    intro i hi hi'
    refine hidentified.unitBody_self hi' hi fun q hq => ?_
    have hsplit : (identifiedIn c c.units c.units i).units = c.units := List.take_append_drop ..
    rw [hidentified.child_eq hlaid.dense hi', CompilationRequest.child,
      CompilationRequest.findUnit, hsplit, hdense.find?]
    split
    · rfl
    · next hnot =>
      obtain ⟨hlt, hne⟩ := hlaid.child_lt hi' hq
      have index : c.units[i].index.toNat = i := hdense i hi
      have lists : c.Lists c.units[i].index q := by
        refine ⟨c.units[i], ?_, ?_⟩
        · rw [CompilationRequest.findUnit, hdense.find?, index, List.getElem?_eq_getElem hi]
        · rw [hidentified.unit_eq hi' hi]
          exact hq
      have below : c.units[i].index < q := by
        rw [UInt32.lt_iff_toNat_lt, index]
        omega
      rw [hlaid.digestAt_eq, children _ q lists below, CompilationRequest.identityOf,
        CompilationRequest.findUnit, hdense.find?]
  refine ⟨rfl, fun i hi => ?_, fun i hi => ?_⟩
  · rw [unitRecord_eq_of_body (body i hi (hlen ▸ hi))]
    exact hidentified.written i (hlen ▸ hi)
  · rw [List.getElem?_eq_getElem hi, Option.some.injEq, CompilationUnitSpec.identified,
      deriveUnitIdentity, unitRecord_eq_of_body (body i hi (hlen ▸ hi))]
    have hget := hidentified.getElem (hlen ▸ hi) hi
    conv_lhs => rw [hget]
    conv_rhs => rw [hget]
    rfl

/-- Units that are identified once more, with the same result, were identified
with the right children, unless two of the records collide. -/
theorem children_of_identified {d : CompilationRequest} {before : List CompilationUnitSpec}
    {records : Set Bytes} (hlaid : Laid r before) (hidentified : Identified c before c.units)
    (hidentified' : Identified d c.units d.units)
    (same : d.units.map (·.identityDigest) = c.units.map (·.identityDigest))
    (hfree : Set.InjOn sha256 records)
    (first : ∀ i, ∀ hi : i < before.length,
      (unitRecord (identifiedIn c before c.units i) before[i]).bytes ∈ records)
    (second : ∀ i, ∀ hi : i < c.units.length,
      (unitRecord (identifiedIn d c.units d.units i) c.units[i]).bytes ∈ records) :
    (∀ i, ∀ hi : i < before.length, ∀ hi' : i < c.units.length,
      unitBody (identifiedIn c before c.units i) before[i] =
        unitBody (identifiedIn d c.units d.units i) c.units[i]) ∧
      ∀ p q, c.Lists p q → p < q → r.identityOf q = c.identityOf q := by
  have hlen := hidentified.length_eq
  have hdense := h.dense_units
  -- equal identities come from equal records
  have body : ∀ i, ∀ hi : i < before.length, ∀ hi' : i < c.units.length,
      unitBody (identifiedIn c before c.units i) before[i] =
        unitBody (identifiedIn d c.units d.units i) c.units[i] := by
    intro i hi hi'
    have hi'' : i < d.units.length := hidentified'.length_eq ▸ hi'
    have digests : d.units[i].identityDigest = c.units[i].identityDigest := by
      have hget := congrArg (·[i]?) same
      simpa only [List.getElem?_map, List.getElem?_eq_getElem hi', List.getElem?_eq_getElem hi'',
        Option.map_some, Option.some.injEq] using hget
    rw [hidentified.getElem hi hi', hidentified'.getElem hi' hi''] at digests
    exact unitBody_eq_of_bytes (hidentified.written i hi) (hidentified'.written i hi')
      (hfree (first i hi) (second i hi') digests.symm)
  refine ⟨body, ?_⟩
  rintro p q ⟨unit, hfind, hq⟩ hpq
  rw [CompilationRequest.findUnit, hdense.find?] at hfind
  obtain ⟨hp', rfl⟩ := List.getElem?_eq_some_iff.mp hfind
  have hp : p.toNat < before.length := hlen ▸ hp'
  rw [hidentified.unit_eq hp hp'] at hq
  have children := congrArg UnitBody.children (body _ hp hp')
  have hq' : c.units[p.toNat].childUnits = before[p.toNat].childUnits := by
    rw [hidentified.unit_eq hp hp']
  simp only [unitBody, hq', List.map_inj_left] at children
  have child := children q hq
  have above : ¬q.toNat < p.toNat := by
    rw [UInt32.lt_iff_toNat_lt] at hpq
    omega
  rw [hidentified.child_eq hlaid.dense hp, hidentified'.child_eq hdense hp', if_neg above,
    if_neg above, Prod.mk.injEq, and_iff_right rfl] at child
  have hq_lt := (hlaid.child_lt hp hq).1
  rw [← hlaid.digestAt_eq, CompilationRequest.identityOf, CompilationRequest.findUnit, hdense.find?]
  have some_of_lt : ∀ {units : List CompilationUnitSpec}, units.length = before.length →
      ∃ digest, digestAt units q.toNat = some digest := by
    intro units hunits
    exact ⟨_, congrArg (Option.map _) (List.getElem?_eq_getElem (hunits ▸ hq_lt))⟩
  obtain ⟨x, hx⟩ := @some_of_lt before rfl
  obtain ⟨y, hy⟩ := some_of_lt hlen
  rw [hx, hy, Option.getD_some, Option.getD_some] at child
  rw [hx, child, ← hy]
  rfl

end Canonicalized

-- ---------------------------------------------------------------------------
-- A second pass over a request
-- ---------------------------------------------------------------------------

/-- Trimming kept the order of the names of `r`, and `r` supplied the right
identity for every child that its canonical form `c` lists below its own
index. -/
structure Settled (r c : CompilationRequest) : Prop where
  fields : r.specialization.TrimsInOrder
  vars : r.environment.TrimsInOrder
  children : ∀ p q, c.Lists p q → p < q → r.identityOf q = c.identityOf q

/-- No two unit records of the two passes collide. -/
def PassesCollisionFree (r c : CompilationRequest) : Prop :=
  Set.InjOn sha256 { bytes | bytes ∈ hashedUnits r ++ hashedUnits c }

section

variable {r c : CompilationRequest}

theorem laid_self (h : Canonicalized r c) :
    canonicalizeUnits c.policy 0 (sortBy (fun a b => compare a.index b.index) c.units) =
      .ok c.units := by
  refine h.laid_of (List.forall₂_same.mpr fun unit hunit => ?_)
  obtain ⟨raw, hraw⟩ := h.unit_canonical hunit
  exact hraw.self h.order_eq

/-- A settled request is its own canonical form. -/
theorem Settled.canonicalized_self (hs : Settled r c) (h : Canonicalized r c) :
    Canonicalized c c where
  eq := by
    have target := h.target_canonical
    have concrete : canonicalizeTarget c.target = c.target := by
      rw [canonicalizeTarget, ← target.1]
    have environment : canonicalizeEnvironment c.environment = c.environment := by
      rw [h.environment_eq]
      exact (canonicalizeEnvironment_self_iff _).mpr (r.environment.trimsInOrder_iff.mp hs.vars)
    rw [CompilationRequest.assembled, h.toolchain_canonical.fixed, concrete, ← target.2,
      ← h.policy_canonical.1, ← h.policy_canonical.2, h.dependencies_canonical.fixed, environment]
  toolchainId_fits := h.toolchainId_fits
  toolchain_fits := h.toolchain_fits
  family := h.family
  toolchain_present := h.toolchain_present
  target_fits := h.target_fits
  concrete := h.concrete
  specialization := h.specialization_canonical.self_iff.mpr hs.fields
  dependencies_fits := h.dependencies_fits
  environment_fits := h.environment_fits
  flags := canonicalizeFlags_eq_ok_iff.mpr
    ((canonicalizeFlags_eq_ok_iff.mp h.flags).self h.order_eq)
  nonempty := h.units_nonempty
  policy_fits := h.policy_fits
  units := ⟨c.units, ⟨laid_self h, h.checkChildren_units⟩, h.identified_self hs.children⟩
  request_fits := h.request_fits
  requestIdentity := h.requestIdentity

/-- A request that is its own canonical form was settled. -/
theorem settled_of_self (hr : canonicalize r = .ok c) (hfree : PassesCollisionFree r c)
    (hself : canonicalize c = .ok c) : Settled r c := by
  have h := (canonicalize_eq_ok_iff r c).mp hr
  have h' := (canonicalize_eq_ok_iff c c).mp hself
  obtain ⟨before, hlaid, hidentified⟩ := h.units
  obtain ⟨units, hlaid', hidentified'⟩ := h'.units
  obtain rfl : c.units = units := by
    have laid := hlaid'.canonical
    rw [laid_self h] at laid
    exact Except.ok.inj laid
  refine ⟨h.specialization_canonical.self_iff.mp h'.specialization, ?_, ?_⟩
  · rw [EnvironmentContract.trimsInOrder_iff, ← canonicalizeEnvironment_self_iff,
      ← h.environment_eq]
    exact h'.environment_eq.symm
  · exact (h.children_of_identified hlaid hidentified hidentified' rfl hfree
      (fun i hi => List.mem_append_left _ (mem_hashedUnits hr hlaid hi))
      fun i hi => List.mem_append_right _ (mem_hashedUnits hself hlaid' hi)).2

end

end

-- ---------------------------------------------------------------------------
-- Two names that trimming brings together
-- ---------------------------------------------------------------------------

/-- A single compile unit; its request is specialized by fields of these names. -/
def specializedRequest (names : List Bytes) : CompilationRequest where
  requestId := ⟨1⟩
  toolchain := { family := .gnu, versionString := txt "13" }
  target := { os := .linux, arch := .x86_64 }
  specialization := { fields := names.map fun name => { name := name } }
  units := [{ logicalName := txt "a", sources := [
    { logicalName := txt "a.cpp", content := { digest := .filled 1, size := 1 } }] }]

/-- The request is accepted. -/
def accepts (r : CompilationRequest) : Bool :=
  match canonicalize r with
  | .error _ => false
  | .ok c => c.units.all (·.childUnits.isEmpty)

theorem accepts_elim {r : CompilationRequest} (h : accepts r = true) :
    ∃ c, canonicalize r = .ok c ∧ ∀ p q, ¬c.Lists p q := by
  rw [accepts] at h
  split at h
  · cases h
  next c hr =>
  refine ⟨c, hr, ?_⟩
  rintro p q ⟨unit, hfind, hq⟩
  rw [List.isEmpty_iff.mp (List.all_eq_true.mp h unit (List.mem_of_find?_eq_some hfind))] at hq
  exact absurd hq List.not_mem_nil

end DistributedCompilation
