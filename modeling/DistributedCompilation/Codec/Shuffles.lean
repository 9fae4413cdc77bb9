import DistributedCompilation.Base.Evaluation
import DistributedCompilation.Codec.FixedPoints

/-!
# Distributed Compilation — requests in another order

`Shuffled` relates two requests that list the same things in another order. The
identities do not depend on the order as long as no two entries that a sort
holds for equal differ in what is hashed (`Unambiguous`): SDK components are
sorted by name, plugins by id, configuration pairs and environment variables by
key, and whichever comes first stays in front, or stays alone.

A variable may repeat with two values when the one before it in order trims to
the same name: both are dropped (`EnvironmentContract.Covered`).
-/

namespace DistributedCompilation

-- ---------------------------------------------------------------------------
-- Other orders
-- ---------------------------------------------------------------------------

structure ToolchainIdentity.Shuffled (a b : ToolchainIdentity) : Prop where
  eq : b = { a with
    sdk := b.sdk, plugins := b.plugins, targetLibraries := b.targetLibraries
    configuration := b.configuration }
  sdk : a.sdk.Perm b.sdk
  plugins : a.plugins.Perm b.plugins
  targetLibraries : a.targetLibraries.Perm b.targetLibraries
  configuration : a.configuration.Perm b.configuration

/-- Flags may move only where the policy says that their order has no meaning. -/
def FlagsShuffled (policy : CompilePolicy) (flags flags' : List Bytes) : Prop :=
  if policy.flagOrderSignificant then flags = flags' else flags.Perm flags'

structure CompilationUnitSpec.Shuffled (policy : CompilePolicy) (a b : CompilationUnitSpec) :
    Prop where
  eq : b = { a with
    sources := b.sources, dependencies := b.dependencies, flags := b.flags
    childUnits := b.childUnits }
  sources : a.sources.Perm b.sources
  dependencies : a.dependencies.Perm b.dependencies
  flags : FlagsShuffled policy a.flags b.flags
  childUnits : a.childUnits.Perm b.childUnits

/-- `b` lists what `a` lists, in another order; every unit keeps its index. -/
structure CompilationRequest.Shuffled (a b : CompilationRequest) : Prop where
  eq : b = { a with
    toolchain := b.toolchain
    specialization := { a.specialization with fields := b.specialization.fields }
    dependencies := { a.dependencies with entries := b.dependencies.entries }
    environment := { a.environment with vars := b.environment.vars }
    flags := b.flags, units := b.units }
  toolchain : a.toolchain.Shuffled b.toolchain
  fields : a.specialization.fields.Perm b.specialization.fields
  entries : a.dependencies.entries.Perm b.dependencies.entries
  vars : a.environment.vars.Perm b.environment.vars
  flags : FlagsShuffled a.policy a.flags b.flags
  units : ∃ units, a.units.Perm units ∧
    List.Forall₂ (CompilationUnitSpec.Shuffled a.policy) units b.units

theorem ToolchainIdentity.Shuffled.symm {a b : ToolchainIdentity} (h : a.Shuffled b) :
    b.Shuffled a where
  eq := by
    rw [h.eq]
  sdk := h.sdk.symm
  plugins := h.plugins.symm
  targetLibraries := h.targetLibraries.symm
  configuration := h.configuration.symm

theorem FlagsShuffled.symm {policy : CompilePolicy} {flags flags' : List Bytes}
    (h : FlagsShuffled policy flags flags') : FlagsShuffled policy flags' flags := by
  unfold FlagsShuffled at h ⊢
  split
  next hsig => rw [if_pos hsig] at h; exact h.symm
  next hsig => rw [if_neg hsig] at h; exact h.symm

theorem CompilationUnitSpec.Shuffled.symm {policy : CompilePolicy} {a b : CompilationUnitSpec}
    (h : a.Shuffled policy b) : b.Shuffled policy a where
  eq := by
    rw [h.eq]
  sources := h.sources.symm
  dependencies := h.dependencies.symm
  flags := h.flags.symm
  childUnits := h.childUnits.symm

namespace CompilationRequest.Shuffled

variable {a b : CompilationRequest} (h : a.Shuffled b)

include h

theorem policy_eq : b.policy = a.policy := congrArg (·.policy) h.eq

theorem symm : b.Shuffled a where
  eq := by
    rw [h.eq]
  toolchain := h.toolchain.symm
  fields := h.fields.symm
  entries := h.entries.symm
  vars := h.vars.symm
  flags := by
    rw [h.policy_eq]
    exact h.flags.symm
  units := by
    obtain ⟨units, hperm, hunits⟩ := h.units
    have back : List.Forall₂ (CompilationUnitSpec.Shuffled a.policy) b.units units :=
      List.Forall₂.imp (fun _ _ hunit => CompilationUnitSpec.Shuffled.symm hunit) hunits.flip
    have swapped : Relation.Comp (List.Forall₂ (CompilationUnitSpec.Shuffled a.policy)) List.Perm
        b.units a.units := ⟨units, back, hperm.symm⟩
    rw [List.forall₂_comp_perm_eq_perm_comp_forall₂] at swapped
    rw [h.policy_eq]
    exact swapped

end CompilationRequest.Shuffled

-- ---------------------------------------------------------------------------
-- Entries with one key
-- ---------------------------------------------------------------------------

/-- Entries of one key agree in what is hashed of them. -/
def AgreeOn {α β γ : Type} (key : α → β) (value : α → γ) (items : List α) : Prop :=
  ∀ x ∈ items, ∀ y ∈ items, key x = key y → value x = value y

/-- The next smaller name that is set trims to the same name as `name`. -/
def EnvironmentContract.Covered (env : EnvironmentContract) (name : Bytes) : Prop :=
  ∃ u ∈ env.vars, compare u.1 name = .lt ∧ trim u.1 = trim name ∧
    ∀ v ∈ env.vars, compare u.1 v.1 = .lt → compare v.1 name ≠ .lt

/-- The order of the lists decides nothing that is hashed. -/
structure CompilationRequest.Unambiguous (r : CompilationRequest) : Prop where
  sdk : AgreeOn (·.name) (·.version) r.toolchain.sdk
  plugins : AgreeOn (·.id) (fun x => (x.version, x.digest)) r.toolchain.plugins
  configuration : AgreeOn Prod.fst Prod.snd r.toolchain.configuration
  vars : ∀ v ∈ r.environment.vars, ∀ w ∈ r.environment.vars, v.1 = w.1 →
    v.2 = w.2 ∨ r.environment.Covered v.1

theorem AgreeOn.perm {α β γ : Type} {key : α → β} {value : α → γ} {items items' : List α}
    (h : AgreeOn key value items) (hperm : items.Perm items') : AgreeOn key value items' :=
  fun x hx y hy => h x (hperm.mem_iff.mpr hx) y (hperm.mem_iff.mpr hy)

theorem EnvironmentContract.Covered.perm {a b : EnvironmentContract} {name : Bytes}
    (h : a.Covered name) (hperm : a.vars.Perm b.vars) : b.Covered name := by
  obtain ⟨u, hu, hlt, htrim, hnext⟩ := h
  exact ⟨u, hperm.mem_iff.mp hu, hlt, htrim, fun v hv => hnext v (hperm.mem_iff.mpr hv)⟩

theorem CompilationRequest.Unambiguous.shuffled {a b : CompilationRequest} (h : a.Unambiguous)
    (hs : a.Shuffled b) : b.Unambiguous where
  sdk := h.sdk.perm hs.toolchain.sdk
  plugins := h.plugins.perm hs.toolchain.plugins
  configuration := h.configuration.perm hs.toolchain.configuration
  vars := by
    intro v hv w hw heq
    rcases h.vars v (hs.vars.mem_iff.mpr hv) w (hs.vars.mem_iff.mpr hw) heq with hsame | hcovered
    · exact .inl hsame
    · exact .inr (hcovered.perm hs.vars)

-- ---------------------------------------------------------------------------
-- Descriptors
-- ---------------------------------------------------------------------------

/-- Pairs of one key that agree in their value are equal. -/
theorem sortBy_compareConfig_eq_of_perm {pairs pairs' : List (Bytes × Bytes)}
    (h : AgreeOn Prod.fst Prod.snd pairs) (hperm : pairs.Perm pairs') :
    sortBy compareConfig pairs = sortBy compareConfig pairs' := by
  refine sortBy_eq_of_perm hperm fun x hx y hy hxy => ?_
  have key : x.1 = y.1 := Std.LawfulEqOrd.eq_of_compare hxy
  exact Prod.ext key (h x hx y hy key)

namespace EnvironmentContract

variable {a b : EnvironmentContract}

open Classical in
/-- A variable without its value where deduplication drops it. -/
noncomputable def blanked (env : EnvironmentContract) (kv : Bytes × Bytes) : Bytes × Bytes :=
  if env.Covered kv.1 then (kv.1, []) else kv

theorem blanked_fst (env : EnvironmentContract) (kv : Bytes × Bytes) :
    (env.blanked kv).1 = kv.1 := by
  unfold blanked
  split <;> rfl

theorem blanked_perm (hperm : a.vars.Perm b.vars) : a.blanked = b.blanked := by
  funext kv
  have same : a.Covered kv.1 ↔ b.Covered kv.1 := ⟨fun h => h.perm hperm, fun h => h.perm hperm.symm⟩
  unfold blanked
  by_cases hcovered : a.Covered kv.1
  · rw [if_pos hcovered, if_pos (same.mp hcovered)]
  · rw [if_neg hcovered, if_neg (fun h => hcovered (same.mpr h))]

/-- The first variable in order is not covered. -/
theorem not_covered_head {kv : Bytes × Bytes} {rest : List (Bytes × Bytes)}
    (h : sortBy compareConfig a.vars = kv :: rest) : ¬a.Covered kv.1 := by
  rintro ⟨u, hu, hlt, -, -⟩
  have sorted := sortedBy_sortBy compareConfig a.vars
  have hmem : u ∈ sortBy compareConfig a.vars := mem_sortBy.mpr hu
  rw [h] at sorted hmem
  rcases List.mem_cons.mp hmem with rfl | hrest
  · have same : compare u.1 u.1 = .eq := Std.ReflOrd.compare_self
    rw [same] at hlt
    cases hlt
  · have hle : (compare kv.1 u.1).isLE = true := List.rel_of_pairwise_cons sorted hrest
    have hswap : compare kv.1 u.1 = (compare u.1 kv.1).swap := Std.OrientedOrd.eq_swap
    rw [hswap, hlt] at hle
    exact absurd hle (by decide)

/-- A covered variable trims to the name of the variable before it. -/
theorem trim_eq_of_covered {x y : Bytes × Bytes} {front back : List (Bytes × Bytes)}
    (h : sortBy compareConfig a.vars = front ++ x :: y :: back) (hcovered : a.Covered y.1) :
    trim y.1 = trim x.1 := by
  obtain ⟨u, hu, hlt, htrim, hnext⟩ := hcovered
  have sorted := sortedBy_sortBy compareConfig a.vars
  have hmem : u ∈ sortBy compareConfig a.vars := mem_sortBy.mpr hu
  have hx : x ∈ a.vars := by
    rw [← @mem_sortBy _ compareConfig, h]
    simp
  rw [h] at sorted hmem
  obtain ⟨-, htail, hcross⟩ := List.pairwise_append.mp sorted
  have hswap : ∀ v w : Bytes, compare v w = (compare w v).swap := fun _ _ => Std.OrientedOrd.eq_swap
  -- `u` stands before `y`, so it is not greater than `x`
  have hux : (compare u.1 x.1).isLE = true := by
    rcases List.mem_append.mp hmem with hfront | hrest
    · exact hcross u hfront x (List.mem_cons_self)
    rcases List.mem_cons.mp hrest with rfl | hrest
    · rw [Std.ReflOrd.compare_self]
      rfl
    have hyu : (compare y.1 u.1).isLE = true := by
      rcases List.mem_cons.mp hrest with rfl | hback
      · rw [Std.ReflOrd.compare_self]
        rfl
      · exact List.rel_of_pairwise_cons htail.of_cons hback
    rw [hswap, hlt] at hyu
    exact absurd hyu (by decide)
  cases hc : compare u.1 x.1 with
  | eq =>
    rw [← htrim, Std.LawfulEqOrd.eq_of_compare hc]
  | gt =>
    rw [hc] at hux
    exact absurd hux (by decide)
  | lt =>
    -- nothing lies between `u` and `y`, so `x` carries the name of `y`
    have hxy : (compare x.1 y.1).isLE = true := List.rel_of_pairwise_cons htail List.mem_cons_self
    cases hcy : compare x.1 y.1 with
    | eq => rw [Std.LawfulEqOrd.eq_of_compare hcy]
    | lt => exact absurd hcy (hnext x hx hc)
    | gt =>
      rw [hcy] at hxy
      exact absurd hxy (by decide)

/-- Deduplication by trimmed names does not read the values of covered variables. -/
theorem uniqueBy_blanked (env : EnvironmentContract) :
    uniqueBy (fun x y => trim x.1 == trim y.1)
        (sortBy compareConfig (env.vars.map env.blanked)) =
      uniqueBy (fun x y => trim x.1 == trim y.1) (sortBy compareConfig env.vars) := by
  have sorted : sortBy compareConfig (env.vars.map env.blanked) =
      (sortBy compareConfig env.vars).map env.blanked :=
    sortBy_map env.blanked (fun x y => by rw [compareConfig, blanked_fst, blanked_fst, compareConfig]) _
  have fixed : ∀ kv, ¬env.Covered kv.1 → env.blanked kv = kv := fun kv h => if_neg h
  rw [sorted]
  refine uniqueBy_map_of_isChain (k := fun kv : Bytes × Bytes => trim kv.1) (fun kv => ?_)
    (fun kv hkv => ?_) ?_
  · rw [blanked_fst]
  · obtain ⟨rest, hrest⟩ : ∃ rest, sortBy compareConfig env.vars = kv :: rest :=
      ⟨_, (List.eq_cons_of_mem_head? hkv)⟩
    exact fixed kv (not_covered_head hrest)
  · rw [List.isChain_iff_forall_rel_of_append_cons_cons]
    intro x y front back heq
    by_cases hcovered : env.Covered y.1
    · exact .inl (trim_eq_of_covered heq hcovered)
    · exact .inr (fixed y hcovered)

end EnvironmentContract

/-- The variables of a canonical environment. -/
theorem vars_canonicalizeEnvironment (env : EnvironmentContract) :
    (canonicalizeEnvironment env).vars =
      (uniqueBy (fun x y => trim x.1 == trim y.1) (sortBy compareConfig env.vars)).map
        fun kv => (trim kv.1, kv.2) := by
  let trimmed : Bytes × Bytes → Bytes × Bytes := fun kv => (trim kv.1, kv.2)
  have distinct : ∀ vars, uniqueBy (fun x y => x.1 == y.1) (vars.map trimmed) =
      (uniqueBy (fun x y => trim x.1 == trim y.1) vars).map trimmed :=
    uniqueBy_map trimmed fun _ _ => rfl
  exact distinct _

theorem CompilationRequest.Shuffled.environment {a b : CompilationRequest} (h : a.Shuffled b)
    (hu : a.Unambiguous) :
    canonicalizeEnvironment b.environment = canonicalizeEnvironment a.environment := by
  have agree : AgreeOn Prod.fst Prod.snd (a.environment.vars.map a.environment.blanked) := by
    intro x hx y hy hxy
    obtain ⟨v, hv, rfl⟩ := List.mem_map.mp hx
    obtain ⟨w, hw, rfl⟩ := List.mem_map.mp hy
    rw [EnvironmentContract.blanked_fst, EnvironmentContract.blanked_fst] at hxy
    unfold EnvironmentContract.blanked
    rw [← hxy]
    split
    next => rfl
    next hcovered => exact (hu.vars v hv w hw hxy).resolve_right hcovered
  have vars : (canonicalizeEnvironment b.environment).vars =
      (canonicalizeEnvironment a.environment).vars := by
    rw [vars_canonicalizeEnvironment, vars_canonicalizeEnvironment,
      ← b.environment.uniqueBy_blanked, ← a.environment.uniqueBy_blanked,
      ← EnvironmentContract.blanked_perm h.vars,
      sortBy_compareConfig_eq_of_perm agree (h.vars.map _)]
  have rest : canonicalizeEnvironment b.environment =
      { canonicalizeEnvironment a.environment with
        vars := (canonicalizeEnvironment b.environment).vars } := by
    rw [congrArg (·.environment) h.eq]
    rfl
  rw [rest, vars]

/-- Distinct names keep the elements of a list apart. -/
theorem Ordered.eq_of_compare {α : Type} {name : α → Bytes} {items : List α}
    (h : Ordered name items) {x y : α} (hx : x ∈ items) (hy : y ∈ items)
    (heq : compare (name x) (name y) = .eq) : x = y := by
  let apart : α → α → Prop := fun x y => compare (name x) (name y) = .eq → x = y
  have symm : Std.Symm apart := by
    refine ⟨fun x y hxy hyx => ?_⟩
    have key : name y = name x := Std.LawfulEqOrd.eq_of_compare hyx
    exact (hxy (by rw [key]; exact Std.ReflOrd.compare_self)).symm
  have pairs : items.Pairwise apart := List.Pairwise.imp (fun {x y} hlt heq => by
    rw [hlt] at heq
    cases heq) h
  exact pairs.forall_of_forall (fun _ _ _ => rfl) hx hy heq

theorem eq_of_compareDependency {x y : DependencyEntry} (h : compareDependency x y = .eq) :
    x.name = y.name ∧ x.kind = y.kind ∧ x.content = y.content := by
  rw [compareDependency, Ordering.then_eq_eq, Ordering.then_eq_eq, Ordering.then_eq_eq] at h
  obtain ⟨hkind, hname, hdigest, hsize⟩ := h
  have code : WireEnum.code x.kind = WireEnum.code y.kind := Std.LawfulEqOrd.eq_of_compare hkind
  have kind : some x.kind = some y.kind := by
    rw [← WireEnum.ofCode_code x.kind, code, WireEnum.ofCode_code]
  have digest : x.content.digest = y.content.digest := Std.LawfulEqOrd.eq_of_compare hdigest
  have size : x.content.size = y.content.size := Std.LawfulEqOrd.eq_of_compare hsize
  refine ⟨Std.LawfulEqOrd.eq_of_compare hname, Option.some.inj kind, ?_⟩
  cases hx : x.content
  cases hy : y.content
  rw [hx, hy] at digest size
  exact congr (congrArg ContentRef.mk digest) size

section

variable [HashFunction]

/-- A dependency with its identity is known by what is sorted. -/
theorem eq_of_compareDependency_acceptable {x y : DependencyEntry} (hx : x.Acceptable)
    (hy : y.Acceptable) (h : compareDependency x y = .eq) : x = y := by
  obtain ⟨hname, hkind, hcontent⟩ := eq_of_compareDependency h
  have identity : computeDependencyEntryIdentity x = computeDependencyEntryIdentity y := by
    simp only [computeDependencyEntryIdentity, dependencyEntryRecord, writeDependencyEntry, hname,
      hkind, hcontent]
  unfold DependencyEntry.Acceptable at hx hy
  cases x
  cases y
  simp_all

theorem CompilationRequest.Shuffled.dependencies {a b : CompilationRequest} (h : a.Shuffled b) :
    canonicalizeDependencySet b.dependencies = canonicalizeDependencySet a.dependencies := by
  let identify : DependencyEntry → DependencyEntry := fun entry =>
    { entry with identityDigest := computeDependencyEntryIdentity entry }
  let same : DependencyEntry → DependencyEntry → Bool := fun a b => a.name == b.name &&
    a.kind == b.kind && a.content.digest == b.content.digest && a.content.size == b.content.size
  have sorted : ∀ entries, sortBy compareDependency (entries.map identify) =
      (sortBy compareDependency entries).map identify := sortBy_map identify fun _ _ => rfl
  have distinct : ∀ entries, uniqueBy same (entries.map identify) =
      (uniqueBy same entries).map identify := uniqueBy_map identify fun _ _ => rfl
  have acceptable : ∀ entry ∈ a.dependencies.entries.map identify, entry.Acceptable := by
    intro entry hentry
    obtain ⟨raw, -, rfl⟩ := List.mem_map.mp hentry
    rfl
  have agree : sortBy compareDependency (a.dependencies.entries.map identify) =
      sortBy compareDependency (b.dependencies.entries.map identify) :=
    sortBy_eq_of_perm (h.entries.map identify) fun x hx y hy hxy =>
      eq_of_compareDependency_acceptable (acceptable x hx) (acceptable y hy) hxy
  have entries : (uniqueBy same (sortBy compareDependency b.dependencies.entries)).map identify =
      (uniqueBy same (sortBy compareDependency a.dependencies.entries)).map identify := by
    rw [← distinct, ← distinct, ← sorted, ← sorted, agree]
  have set : b.dependencies = { a.dependencies with entries := b.dependencies.entries } :=
    congrArg (·.dependencies) h.eq
  rw [set]
  show (let set : DependencySet := { a.dependencies with
      entries := (uniqueBy same (sortBy compareDependency b.dependencies.entries)).map identify }
    { set with id := deriveDependencySetId set, identityDigest := computeDependencySetIdentity set }) = _
  rw [entries]
  rfl

-- ---------------------------------------------------------------------------
-- Toolchains
-- ---------------------------------------------------------------------------

omit [HashFunction] in
theorem toolchainRecord_withSdk (toolchain : ToolchainIdentity) {sdk sdk' : List SdkComponent}
    (h : sdk.map (fun x => ({ name := x.name, version := x.version } : SdkComponent)) =
      sdk'.map fun x => { name := x.name, version := x.version }) :
    toolchainRecord { toolchain with sdk := sdk } =
      toolchainRecord { toolchain with sdk := sdk' } := by
  rw [← toolchainRecord_carried, ← toolchainRecord_carried { toolchain with sdk := sdk' }]
  simp only [ToolchainIdentity.carried, h]

/-- Of the lists of a toolchain only the install roots keep their order. -/
theorem ToolchainIdentity.Shuffled.canonicalize {a b : ToolchainIdentity} (h : a.Shuffled b)
    (sdk : AgreeOn (·.name) (·.version) a.sdk)
    (plugins : AgreeOn (·.id) (fun x => (x.version, x.digest)) a.plugins)
    (configuration : AgreeOn Prod.fst Prod.snd a.configuration) :
    (canonicalizeToolchain b).carried = (canonicalizeToolchain a).carried := by
  let carry : SdkComponent → SdkComponent := fun x => { name := x.name, version := x.version }
  have hsdk : (sortBy compareSdk b.sdk).map carry = (sortBy compareSdk a.sdk).map carry := by
    have sorted : ∀ xs, sortBy compareSdk (xs.map carry) = (sortBy compareSdk xs).map carry :=
      sortBy_map carry fun _ _ => rfl
    rw [← sorted, ← sorted]
    refine (sortBy_eq_of_perm (h.sdk.map carry) fun x hx y hy hxy => ?_).symm
    obtain ⟨v, hv, rfl⟩ := List.mem_map.mp hx
    obtain ⟨w, hw, rfl⟩ := List.mem_map.mp hy
    have name : v.name = w.name := Std.LawfulEqOrd.eq_of_compare hxy
    have version : v.version = w.version := sdk v hv w hw name
    show ({ name := v.name, version := v.version } : SdkComponent) = _
    rw [name, version]
  have hplugins : sortBy comparePlugin b.plugins = sortBy comparePlugin a.plugins := by
    refine (sortBy_eq_of_perm h.plugins fun x hx y hy hxy => ?_).symm
    have id : x.id = y.id := Std.LawfulEqOrd.eq_of_compare hxy
    have rest := plugins x hx y hy id
    cases x
    cases y
    simp_all
  have hlibraries : sortBy compare b.targetLibraries = sortBy compare a.targetLibraries :=
    (sortBy_eq_of_perm h.targetLibraries fun _ _ _ _ => Std.LawfulEqOrd.eq_of_compare).symm
  have hconfiguration : sortBy compareConfig b.configuration =
      sortBy compareConfig a.configuration :=
    (sortBy_compareConfig_eq_of_perm configuration h.configuration).symm
  have eq := h.eq
  generalize b.sdk = sdk' at eq hsdk
  generalize b.plugins = plugins' at eq hplugins
  generalize b.targetLibraries = targetLibraries' at eq hlibraries
  generalize b.configuration = configuration' at eq hconfiguration
  subst eq
  have id : ∀ sdk plugins targetLibraries configuration, deriveToolchainId { a with
      sdk := sdk, plugins := plugins, targetLibraries := targetLibraries
      configuration := configuration } = deriveToolchainId a := fun _ _ _ _ => by
    simp only [deriveToolchainId, toolchainIdRecord]
  have identity : ∀ toolchain : ToolchainIdentity, computeToolchainIdentity
      { toolchain with sdk := sortBy compareSdk sdk' } = computeToolchainIdentity
        { toolchain with sdk := sortBy compareSdk a.sdk } := fun toolchain =>
    congrArg Record.hash (toolchainRecord_withSdk toolchain hsdk)
  have carried : (sortBy compareSdk sdk').map (fun x => ({ name := x.name, version := x.version } :
      SdkComponent)) = (sortBy compareSdk a.sdk).map
        fun x => { name := x.name, version := x.version } := hsdk
  simp only [canonicalizeToolchain, id, hplugins, hlibraries, hconfiguration]
  split
  next =>
    rw [identity { a with
      id := deriveToolchainId a, plugins := sortBy comparePlugin a.plugins
      targetLibraries := uniqueBy (· == ·) (sortBy compare a.targetLibraries)
      configuration := uniqueBy (fun x y => x.1 == y.1) (sortBy compareConfig a.configuration)
      evidenceId := toolchainEvidenceId (deriveToolchainId a) }]
    simp only [ToolchainIdentity.carried, carried]
  next =>
    rw [identity { a with
      id := deriveToolchainId a, plugins := sortBy comparePlugin a.plugins
      targetLibraries := uniqueBy (· == ·) (sortBy compare a.targetLibraries)
      configuration := uniqueBy (fun x y => x.1 == y.1) (sortBy compareConfig a.configuration) }]
    simp only [ToolchainIdentity.carried, carried]

-- ---------------------------------------------------------------------------
-- Specializations
-- ---------------------------------------------------------------------------

/-- Names that repeat refuse both orders, so accepted fields sort one way. -/
theorem CompilationRequest.Shuffled.specialization {a b : CompilationRequest} (h : a.Shuffled b)
    {spec : SpecializationSpec} (hspec : canonicalizeSpecialization a.specialization = .ok spec) :
    canonicalizeSpecialization b.specialization = .ok spec := by
  have hspec := canonicalizeSpecialization_eq_ok_iff.mp hspec
  have ordered : Ordered (·.name)
      (sortBy (fun x y => compare x.name y.name) a.specialization.fields) :=
    ordered_iff.mpr ⟨sortedBy_sortBy (fun x y : SpecField => compare x.name y.name) _, hspec.distinct⟩
  have sorted : sortBy (fun x y => compare x.name y.name) a.specialization.fields =
      sortBy (fun x y => compare x.name y.name) b.specialization.fields :=
    sortBy_eq_of_perm h.fields fun x hx y hy hxy =>
      ordered.eq_of_compare (mem_sortBy.mpr hx) (mem_sortBy.mpr hy) hxy
  have rest : b.specialization =
      { a.specialization with fields := b.specialization.fields } := congrArg (·.specialization) h.eq
  refine canonicalizeSpecialization_eq_ok_iff.mpr {
    distinct := ?_, fields := ?_, fits := hspec.fits, generation := ?_
    id := hspec.id, identity := hspec.identity }
  · rw [← sorted]
    exact hspec.distinct
  · rw [← sorted]
    exact hspec.fields
  · rw [hspec.generation, rest]

-- ---------------------------------------------------------------------------
-- Units
-- ---------------------------------------------------------------------------

omit [HashFunction] in
/-- A loop that refuses no element refuses none in another order. -/
theorem mapM_eq_ok_of_perm {α β : Type} {f : α → Except Fault β} {xs xs' : List α} {ys : List β}
    (h : xs.mapM f = .ok ys) (hperm : xs.Perm xs') :
    ∃ ys', xs'.mapM f = .ok ys' ∧ ys.Perm ys' := by
  obtain ⟨ys', hys', hys⟩ := List.perm_comp_forall₂ hperm.symm (mapM_eq_ok_iff.mp h)
  exact ⟨ys', mapM_eq_ok_iff.mpr hys', hys.symm⟩

omit [HashFunction] in
theorem FlagsCanonicalized.shuffled {policy : CompilePolicy} {flags flags' canonical : List Bytes}
    (h : FlagsCanonicalized policy flags canonical) (hs : FlagsShuffled policy flags flags') :
    FlagsCanonicalized policy flags' canonical := by
  obtain ⟨hclean, heq⟩ := h
  unfold FlagsShuffled at hs
  by_cases hsig : policy.flagOrderSignificant = true
  · rw [if_pos hsig] at hs
    rw [← hs]
    exact ⟨hclean, heq⟩
  · rw [if_neg hsig] at hs heq
    refine ⟨fun flag hflag => hclean flag (hs.mem_iff.mpr hflag), ?_⟩
    rw [if_neg hsig, heq]
    exact sortBy_eq_of_perm (hs.map trim) fun _ _ _ _ => Std.LawfulEqOrd.eq_of_compare

theorem UnitCanonicalized.shuffled {policy : CompilePolicy} {unit unit' canonical : CompilationUnitSpec}
    (h : UnitCanonicalized policy unit canonical) (hs : unit.Shuffled policy unit') :
    UnitCanonicalized policy unit' canonical := by
  obtain ⟨sources, hsources, hsorted⟩ := h.sources
  obtain ⟨dependencies, hdependencies, hdepsorted⟩ := h.dependencies
  obtain ⟨sources', hsources', hsourceperm⟩ := mapM_eq_ok_of_perm hsources hs.sources
  obtain ⟨dependencies', hdependencies', hdepperm⟩ :=
    mapM_eq_ok_of_perm hdependencies hs.dependencies
  have ordered : Ordered (·.logicalName) canonical.sources := by
    refine ordered_iff.mpr ⟨?_, h.distinct⟩
    rw [hsorted]
    exact sortedBy_sortBy compareSource _
  have source : sortBy compareSource sources = sortBy compareSource sources' := by
    refine sortBy_eq_of_perm hsourceperm fun x hx y hy hxy => ?_
    have hx : x ∈ canonical.sources := by rw [hsorted, mem_sortBy]; exact hx
    have hy : y ∈ canonical.sources := by rw [hsorted, mem_sortBy]; exact hy
    exact ordered.eq_of_compare hx hy hxy
  have dependency : sortBy compareDependency dependencies =
      sortBy compareDependency dependencies' := by
    refine sortBy_eq_of_perm hdepperm fun x hx y hy hxy => ?_
    obtain ⟨rawx, -, hrawx⟩ := mem_of_mapM_eq_ok hdependencies hx
    obtain ⟨rawy, -, hrawy⟩ := mem_of_mapM_eq_ok hdependencies hy
    exact eq_of_compareDependency_acceptable (canonicalizeDependency_self hrawx).2
      (canonicalizeDependency_self hrawy).2 hxy
  have children : sortBy compare unit.childUnits = sortBy compare unit'.childUnits :=
    sortBy_eq_of_perm hs.childUnits fun _ _ _ _ => Std.LawfulEqOrd.eq_of_compare
  have kind : unit'.kind = unit.kind := congrArg (·.kind) hs.eq
  refine {
    eq := ?_, sources := ⟨sources', hsources', by rw [hsorted, source]⟩, distinct := h.distinct
    populated := by rw [kind]; exact h.populated
    dependencies := ⟨dependencies', hdependencies', by rw [hdepsorted, dependency]⟩
    flags := h.flags.shuffled hs.flags, named := h.named
    linked := by rw [kind]; exact h.linked }
  have eq := hs.eq
  rw [← children]
  generalize unit'.sources = s' at eq
  generalize unit'.dependencies = d' at eq
  generalize unit'.flags = f' at eq
  generalize unit'.childUnits = c' at eq
  subst eq
  exact h.eq

omit [HashFunction] in
/-- In units that stand at their own index no index occurs twice. -/
theorem Dense.eq_of_index {units : List CompilationUnitSpec} (h : Dense units)
    {x y : CompilationUnitSpec} (hx : x ∈ units) (hy : y ∈ units) (heq : x.index = y.index) :
    x = y := by
  obtain ⟨i, hi, rfl⟩ := List.getElem_of_mem hx
  obtain ⟨j, hj, rfl⟩ := List.getElem_of_mem hy
  have hij : i = j := by
    rw [← h i hi, ← h j hj, heq]
  subst hij
  rfl

instance : Std.TransCmp (fun x y : CompilationUnitSpec => compare x.index y.index) :=
  inferInstanceAs (Std.TransCmp (compareOn CompilationUnitSpec.index))

theorem Laid.shuffled {a b : CompilationRequest} {units : List CompilationUnitSpec}
    (h : Laid a units) (hs : a.Shuffled b) : Laid b units := by
  obtain ⟨moved, hperm, hmoved⟩ := hs.units
  let byIndex : CompilationUnitSpec → CompilationUnitSpec → Ordering :=
    fun x y => compare x.index y.index
  have sorted : sortBy byIndex a.units = sortBy byIndex moved :=
    sortBy_eq_of_perm hperm fun x hx y hy hxy =>
      h.sorted_dense.eq_of_index (mem_sortBy.mpr hx) (mem_sortBy.mpr hy)
        (Std.LawfulEqOrd.eq_of_compare hxy)
  have index : ∀ x y, CompilationUnitSpec.Shuffled a.policy x y → y.index = x.index :=
    fun x y hxy => congrArg (·.index) hxy.eq
  have both : List.Forall₂ (CompilationUnitSpec.Shuffled a.policy)
      (sortBy byIndex a.units) (sortBy byIndex b.units) := by
    rw [sorted]
    refine forall₂_sortBy (fun x y x' y' hxy hxy' => ?_) hmoved
    show compare y.index y'.index = compare x.index x'.index
    rw [index x y hxy, index x' y' hxy']
  obtain ⟨hindices, hunits⟩ := canonicalizeUnits_eq_ok_iff.mp h.canonical
  obtain ⟨hlen, hget⟩ := List.forall₂_iff_get.mp both
  obtain ⟨hlen', hget'⟩ := List.forall₂_iff_get.mp hunits
  refine ⟨canonicalizeUnits_eq_ok_iff.mpr ⟨fun i hi => ?_, List.forall₂_iff_get.mpr
    ⟨hlen.symm.trans hlen', fun i hi hi' => ?_⟩⟩, h.children⟩
  · have hi' : i < (sortBy byIndex a.units).length := hlen ▸ hi
    rw [← hindices i hi']
    exact congrArg UInt32.toNat (index _ _ (hget i hi' hi))
  · have hia : i < (sortBy byIndex a.units).length := hlen ▸ hi
    rw [hs.policy_eq]
    exact canonicalizeUnit_eq_ok_iff.mpr
      ((canonicalizeUnit_eq_ok_iff.mp (hget' i hia hi')).shuffled (hget i hia hi))

-- ---------------------------------------------------------------------------
-- Requests
-- ---------------------------------------------------------------------------

/-- The identities `canonicalize` assigns: of the units, by index, and of the
request. None where it refuses the request. -/
def CompilationRequest.identities? (r : CompilationRequest) : Option (List Digest256 × Digest256) :=
  match canonicalize r with
  | .ok c => some (c.units.map (·.identityDigest), c.requestIdentity)
  | .error _ => none

theorem CompilationRequest.identities?_eq_some {r c : CompilationRequest} (h : Canonicalized r c) :
    r.identities? = some (c.units.map (·.identityDigest), c.requestIdentity) := by
  unfold CompilationRequest.identities?
  rw [(canonicalize_eq_ok_iff r c).mpr h]

/-- The identity digest is all that units and requests read of a toolchain. -/
theorem Identified.withToolchain {request : CompilationRequest}
    {before after : List CompilationUnitSpec} (h : Identified request before after)
    (toolchain : ToolchainIdentity) (same : toolchain.identityDigest = request.toolchain.identityDigest) :
    Identified { request with toolchain := toolchain } before after := by
  have record : ∀ i unit, unitRecord
      (identifiedIn { request with toolchain := toolchain } before after i) unit =
        unitRecord (identifiedIn request before after i) unit := by
    intro i unit
    simp only [unitRecord, writeUnitIdentityBody, identifiedIn, same, CompilationRequest.findUnit]
  refine ⟨h.length_eq, fun i hi => ?_, fun i hi => ?_⟩
  · rw [record]
    exact h.written i hi
  · rw [h.assigned i hi]
    unfold CompilationUnitSpec.identified deriveUnitIdentity
    rw [record]

theorem CompilationRequest.Shuffled.assembled {a b : CompilationRequest} (h : a.Shuffled b)
    (hu : a.Unambiguous) (specialization : SpecializationSpec) (flags : List Bytes)
    (units : List CompilationUnitSpec) (digest : Digest256) :
    b.assembled specialization flags units digest =
      { a.assembled specialization flags units digest with
        toolchain := canonicalizeToolchain b.toolchain } := by
  have dependencies := h.dependencies
  have environment := h.environment hu
  have eq := h.eq
  unfold CompilationRequest.assembled
  rw [dependencies, environment]
  generalize canonicalizeToolchain b.toolchain = toolchain
  generalize b.toolchain = toolchain' at eq
  generalize b.specialization.fields = fields' at eq
  generalize b.dependencies.entries = entries' at eq
  generalize b.environment.vars = vars' at eq
  generalize b.flags = flags' at eq
  generalize b.units = units' at eq
  subst eq
  rfl

theorem Canonicalized.shuffled {a b c : CompilationRequest} (h : Canonicalized a c)
    (hs : a.Shuffled b) (hu : a.Unambiguous) :
    Canonicalized b { c with toolchain := canonicalizeToolchain b.toolchain } := by
  have carried := hs.toolchain.canonicalize hu.sdk hu.plugins hu.configuration
  rw [← h.toolchain_eq] at carried
  have record : toolchainRecord (canonicalizeToolchain b.toolchain) = toolchainRecord c.toolchain := by
    rw [← toolchainRecord_carried, carried, toolchainRecord_carried]
  have idRecord : toolchainIdRecord (canonicalizeToolchain b.toolchain) =
      toolchainIdRecord c.toolchain := by
    have same : toolchainIdRecord (canonicalizeToolchain b.toolchain).carried =
        toolchainIdRecord c.toolchain.carried := congrArg toolchainIdRecord carried
    exact same
  have digest : (canonicalizeToolchain b.toolchain).identityDigest = c.toolchain.identityDigest :=
    congrArg (·.identityDigest) carried
  have family : (canonicalizeToolchain b.toolchain).family = c.toolchain.family :=
    congrArg (·.family) carried
  have target : b.target = a.target := congrArg (·.target) hs.eq
  have request : requestRecord { c with toolchain := canonicalizeToolchain b.toolchain } =
      requestRecord c := by
    simp only [requestRecord, digest]
  obtain ⟨units, hlaid, hidentified⟩ := h.units
  refine {
    eq := ?_, toolchainId_fits := by rw [idRecord]; exact h.toolchainId_fits
    toolchain_fits := by rw [record]; exact h.toolchain_fits
    family := by rw [family]; exact h.family
    toolchain_present := by rw [digest]; exact h.toolchain_present
    target_fits := h.target_fits, concrete := h.concrete
    specialization := hs.specialization h.specialization
    dependencies_fits := h.dependencies_fits, environment_fits := h.environment_fits
    flags := ?_, nonempty := ?_, policy_fits := h.policy_fits
    units := ⟨units, hlaid.shuffled hs, hidentified.withToolchain _ digest⟩
    request_fits := by rw [request]; exact h.request_fits
    requestIdentity := ?_ }
  · rw [hs.assembled hu, ← h.eq]
  · rw [hs.policy_eq]
    exact canonicalizeFlags_eq_ok_iff.mpr ((canonicalizeFlags_eq_ok_iff.mp h.flags).shuffled hs.flags)
  · obtain ⟨moved, hperm, hmoved⟩ := hs.units
    have length : a.units.length = b.units.length := hperm.length_eq.trans hmoved.length_eq
    have nonempty := h.nonempty
    rw [List.isEmpty_eq_false_iff, ← List.length_pos_iff] at nonempty ⊢
    omega
  · show c.requestIdentity = (requestRecord _).hash
    rw [request]
    exact h.requestIdentity

end

-- ---------------------------------------------------------------------------
-- A variable that is set twice
-- ---------------------------------------------------------------------------

/-- One unit, and an environment that sets `CC` twice behind `front`. -/
def twiceSet (front : List (Bytes × Bytes)) (first second : Bytes) : CompilationRequest where
  toolchain := { family := .clang }
  target := { arch := .x86_64 }
  environment := { vars := front ++ [(txt "CC", first), (txt "CC", second)] }
  units := [{
    logicalName := txt "a"
    sources := [{
      logicalName := txt "a.c"
      content := { digest := ⟨List.replicate 32 1, rfl⟩, size := 1 } }] }]

theorem twiceSet_shuffled (front : List (Bytes × Bytes)) (first second : Bytes) :
    (twiceSet front first second).Shuffled (twiceSet front second first) where
  eq := rfl
  toolchain := ⟨rfl, .refl _, .refl _, .refl _, .refl _⟩
  fields := .refl _
  entries := .refl _
  vars := .append_left front (.swap ..)
  flags := rfl
  units := ⟨_, .refl _, .cons ⟨rfl, .refl _, .refl _, rfl, .refl _⟩ .nil⟩

end DistributedCompilation
