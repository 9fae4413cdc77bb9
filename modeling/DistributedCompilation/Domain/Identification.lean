import DistributedCompilation.Domain.Canonicalize

/-!
# Distributed Compilation — what canonicalization establishes

`Canonicalized r c` lists what `canonicalize` checked and computed when it
turned `r` into `c`; it is the only way the proofs look into `canonicalize`
(`canonicalize_eq_ok_iff`).

The loop that assigns the unit identities works in place, in index order, while
every unit record reads the digests of the unit's children. `Identified` is its
closed form: unit `i` is identified in the request whose first `i` units are
the new ones and whose remaining units still are as they were submitted.
-/

namespace DistributedCompilation

-- ---------------------------------------------------------------------------
-- Results
-- ---------------------------------------------------------------------------

theorem bind_eq_ok_iff {ε α β : Type} {x : Except ε α} {f : α → Except ε β} {b : β} :
    (x >>= f) = .ok b ↔ ∃ a, x = .ok a ∧ f a = .ok b := by
  cases x with
  | error e =>
    constructor
    · intro h; cases h
    · rintro ⟨_, h, _⟩; cases h
  | ok a =>
    constructor
    · intro h; exact ⟨a, rfl, h⟩
    · rintro ⟨_, h, hf⟩; cases h; exact hf

theorem writes_eq_ok_iff {r : Record} {u : Unit} : writes r = .ok u ↔ r.fits = true := by
  rw [writes]
  split <;> simp_all

theorem writes_bind_eq_ok_iff {r : Record} {β : Type} {f : Unit → Except Fault β} {b : β} :
    (writes r >>= f) = .ok b ↔ r.fits = true ∧ f () = .ok b := by
  rw [bind_eq_ok_iff]
  constructor
  · rintro ⟨_, h, hf⟩
    exact ⟨writes_eq_ok_iff.mp h, hf⟩
  · rintro ⟨h, hf⟩
    exact ⟨(), writes_eq_ok_iff.mpr h, hf⟩

theorem refuse_or_eq_ok_iff {α : Type} {c : Prop} [Decidable c] {code : ErrorCode} {detail : Bytes}
    {k : Except Fault α} {a : α} :
    (if c then refuse code detail else k) = .ok a ↔ ¬c ∧ k = .ok a := by
  split <;> rename_i h <;> simp [h, refuse]

theorem forM_eq_ok_iff {α : Type} {f : α → Except Fault Unit} {xs : List α} {u : Unit} :
    xs.forM f = .ok u ↔ ∀ x ∈ xs, f x = .ok () := by
  induction xs with
  | nil => exact ⟨fun _ _ h => (List.not_mem_nil h).elim, fun _ => rfl⟩
  | cons x xs ih =>
    rw [List.forM_eq_forM, List.forM_cons, bind_eq_ok_iff, List.forall_mem_cons]
    exact ⟨fun ⟨(), h, hxs⟩ => ⟨h, ih.mp hxs⟩, fun ⟨h, hxs⟩ => ⟨(), h, ih.mpr hxs⟩⟩

/-- What a loop that may refuse made of each element. -/
theorem mapM_eq_ok_iff {α β : Type} {f : α → Except Fault β} {xs : List α} {ys : List β} :
    xs.mapM f = .ok ys ↔ List.Forall₂ (fun x y => f x = .ok y) xs ys := by
  induction xs generalizing ys with
  | nil =>
    rw [List.mapM_nil]
    constructor
    · rintro ⟨⟩; exact .nil
    · rintro ⟨⟩; rfl
  | cons x xs ih =>
    rw [List.mapM_cons, bind_eq_ok_iff]
    constructor
    · rintro ⟨y, hy, h⟩
      obtain ⟨ys', hys, h⟩ := bind_eq_ok_iff.mp h
      cases h
      exact .cons hy (ih.mp hys)
    · intro h
      cases h with
      | cons hy hys => exact ⟨_, hy, bind_eq_ok_iff.mpr ⟨_, ih.mpr hys, rfl⟩⟩

/-- Every result of the loop came from an element. -/
theorem mem_of_mapM_eq_ok {α β : Type} {f : α → Except Fault β} {xs : List α} {ys : List β}
    (h : xs.mapM f = .ok ys) {y : β} (hy : y ∈ ys) : ∃ x ∈ xs, f x = .ok y := by
  obtain ⟨i, hi, rfl⟩ := List.getElem_of_mem hy
  have hforall := mapM_eq_ok_iff.mp h
  exact ⟨_, List.getElem_mem (hforall.length_eq ▸ hi), hforall.get (hforall.length_eq ▸ hi) hi⟩

-- ---------------------------------------------------------------------------
-- Child lists
-- ---------------------------------------------------------------------------

namespace CompilationRequest

/-- Unit `p` lists unit `q` as a child. -/
def Lists (c : CompilationRequest) (p q : UInt32) : Prop :=
  ∃ unit, c.findUnit p = some unit ∧ q ∈ unit.childUnits

/-- The identity digest stored for the unit at an index. -/
def identityOf (c : CompilationRequest) (p : UInt32) : Option Digest256 :=
  (c.findUnit p).map (·.identityDigest)

end CompilationRequest

variable [HashFunction]

-- ---------------------------------------------------------------------------
-- Units, one after the other
-- ---------------------------------------------------------------------------

/-- The request in which the unit at position `i` is identified. -/
def identifiedIn (request : CompilationRequest) (before after : List CompilationUnitSpec) (i : Nat) :
    CompilationRequest :=
  { request with units := after.take i ++ before.drop i }

/-- A unit with its identity in `request`. -/
def CompilationUnitSpec.identified (unit : CompilationUnitSpec) (request : CompilationRequest) :
    CompilationUnitSpec :=
  { unit with identityDigest := deriveUnitIdentity request unit }

/-- The units `after` are the units `before` with their identities, assigned
in index order. -/
structure Identified (request : CompilationRequest) (before after : List CompilationUnitSpec) :
    Prop where
  length_eq : after.length = before.length
  written : ∀ i, ∀ h : i < before.length,
    (unitRecord (identifiedIn request before after i) before[i]).fits = true
  assigned : ∀ i, ∀ h : i < before.length,
    after[i]? = some (before[i].identified (identifiedIn request before after i))

/-- The state of the loop after the units `done`: the units still to come are
`rest`, and they become `new`. -/
theorem identifyUnits_eq_ok_iff_append (request : CompilationRequest)
    (done rest out : List CompilationUnitSpec) :
    identifyUnits request done rest = .ok out ↔
      ∃ new, out = done ++ new ∧ new.length = rest.length ∧
        (∀ i, ∀ h : i < rest.length, (unitRecord
          { request with units := done ++ (new.take i ++ rest.drop i) } rest[i]).fits = true) ∧
        ∀ i, ∀ h : i < rest.length, new[i]? = some (rest[i].identified
          { request with units := done ++ (new.take i ++ rest.drop i) }) := by
  induction rest generalizing request done out with
  | nil =>
    constructor
    · rintro ⟨⟩
      exact ⟨[], by simp, rfl, nofun, nofun⟩
    · rintro ⟨new, rfl, hlen, -, -⟩
      rw [List.length_eq_zero_iff.mp hlen, List.append_nil]
      rfl
  | cons unit rest ih =>
    rw [identifyUnits, writes_bind_eq_ok_iff, ih]
    constructor
    · rintro ⟨hfits, new, rfl, hlen, hwritten, hassigned⟩
      refine ⟨_ :: new, List.append_assoc .., by simp [hlen], ?_, ?_⟩
      · rintro (_ | i) hi
        · exact hfits
        · simpa only [List.append_assoc, List.singleton_append, List.take_succ_cons,
            List.drop_succ_cons, List.cons_append, List.nil_append, List.getElem_cons_succ]
            using hwritten i (by simpa using hi)
      · rintro (_ | i) hi
        · rfl
        · simpa only [List.append_assoc, List.singleton_append, List.take_succ_cons,
            List.drop_succ_cons, List.cons_append, List.nil_append, List.getElem_cons_succ,
            List.getElem?_cons_succ] using hassigned i (by simpa using hi)
    · rintro ⟨_ | ⟨u, new⟩, rfl, hlen, hwritten, hassigned⟩
      · exact absurd hlen (by simp)
      have first : u = unit.identified { request with units := done ++ unit :: rest } :=
        Option.some.inj (hassigned 0 (Nat.succ_pos _))
      subst first
      refine ⟨hwritten 0 (Nat.succ_pos _), new, by simp [CompilationUnitSpec.identified],
        by simpa using hlen, fun i hi => ?_, fun i hi => ?_⟩
      · rw [List.append_assoc]
        exact hwritten (i + 1) (Nat.succ_lt_succ hi)
      · rw [List.append_assoc]
        exact hassigned (i + 1) (Nat.succ_lt_succ hi)

/-- The loop computes `Identified`, and nothing else can. -/
theorem identifyUnits_eq_ok_iff (request : CompilationRequest)
    (before after : List CompilationUnitSpec) :
    identifyUnits request [] before = .ok after ↔ Identified request before after := by
  rw [identifyUnits_eq_ok_iff_append]
  constructor
  · rintro ⟨new, rfl, hlen, hwritten, hassigned⟩
    exact ⟨hlen, hwritten, hassigned⟩
  · rintro ⟨hlen, hwritten, hassigned⟩
    exact ⟨after, rfl, hlen, hwritten, hassigned⟩

-- ---------------------------------------------------------------------------
-- Requests
-- ---------------------------------------------------------------------------

/-- The units of `r` before they are identified in `c`. -/
structure Laid (r : CompilationRequest) (units : List CompilationUnitSpec) : Prop where
  canonical : canonicalizeUnits r.policy 0 (sortBy (fun a b => compare a.index b.index) r.units) =
    .ok units
  children : ∀ unit ∈ units, checkChildren units.length unit.index unit.childUnits = .ok ()

/-- The request `canonicalize` builds from the parts it computes. -/
def CompilationRequest.assembled (r : CompilationRequest) (specialization : SpecializationSpec)
    (flags : List Bytes) (units : List CompilationUnitSpec) (requestIdentity : Digest256) :
    CompilationRequest :=
  { r with
    toolchain := canonicalizeToolchain r.toolchain
    target := { canonicalizeTarget r.target with id := deriveTargetId (canonicalizeTarget r.target) }
    specialization
    policy := { r.policy with
      id := derivePolicyId r.policy, identityDigest := computePolicyIdentity r.policy }
    dependencies := canonicalizeDependencySet r.dependencies
    environment := canonicalizeEnvironment r.environment
    flags, units, requestIdentity }

/-- What `canonicalize` checked and computed on the way from `r` to `c`. -/
structure Canonicalized (r c : CompilationRequest) : Prop where
  eq : c = r.assembled c.specialization c.flags c.units c.requestIdentity
  toolchainId_fits : (toolchainIdRecord c.toolchain).fits = true
  toolchain_fits : (toolchainRecord c.toolchain).fits = true
  family : c.toolchain.family ≠ .unknown
  toolchain_present : c.toolchain.identityDigest.isZero = false
  target_fits : (targetRecord c.target).fits = true
  concrete : (c.target.identityDigest.isZero || c.target.arch == .unknown) = false
  specialization : canonicalizeSpecialization r.specialization = .ok c.specialization
  dependencies_fits : (dependencySetRecord c.dependencies).fits = true
  environment_fits : (environmentRecord c.environment).fits = true
  flags : canonicalizeFlags r.policy (txt "empty job-level compiler flag")
    (txt "control character in job-level compiler flag") r.flags = .ok c.flags
  nonempty : r.units.isEmpty = false
  policy_fits : (policyRecord c.policy).fits = true
  units : ∃ units, Laid r units ∧ Identified c units c.units
  request_fits : (requestRecord c).fits = true
  requestIdentity : c.requestIdentity = deriveRequestIdentity c

namespace Canonicalized

variable {r c : CompilationRequest} (h : Canonicalized r c)

include h

theorem requestId_eq : c.requestId = r.requestId := congrArg (·.requestId) h.eq

theorem validation_eq : c.validation = r.validation := congrArg (·.validation) h.eq

theorem authority_eq : c.authorityGeneration = r.authorityGeneration :=
  congrArg (·.authorityGeneration) h.eq

theorem toolchain_eq : c.toolchain = canonicalizeToolchain r.toolchain :=
  congrArg (·.toolchain) h.eq

theorem target_eq : c.target =
    { canonicalizeTarget r.target with id := deriveTargetId (canonicalizeTarget r.target) } :=
  congrArg (·.target) h.eq

theorem policy_eq : c.policy =
    { r.policy with id := derivePolicyId r.policy, identityDigest := computePolicyIdentity r.policy } :=
  congrArg (·.policy) h.eq

theorem dependencies_eq : c.dependencies = canonicalizeDependencySet r.dependencies :=
  congrArg (·.dependencies) h.eq

theorem environment_eq : c.environment = canonicalizeEnvironment r.environment :=
  congrArg (·.environment) h.eq

end Canonicalized

/-! No identity is part of the record it is the hash of. -/

theorem requestRecord_withIdentity (c : CompilationRequest) (digest : Digest256) :
    requestRecord { c with requestIdentity := digest } = requestRecord c := rfl

omit [HashFunction] in
theorem policyRecord_withIdentity (policy : CompilePolicy) (id : CompilePolicyId)
    (digest : Digest256) :
    policyRecord { policy with id := id, identityDigest := digest } = policyRecord policy := rfl

omit [HashFunction] in
theorem targetRecord_withId (target : TargetIdentity) (id : TargetId) :
    targetRecord { target with id := id } = targetRecord target := rfl

/-- `Identified` looks at no unit and no identity of the request. -/
theorem Identified.of_units {request : CompilationRequest} {before after : List CompilationUnitSpec}
    (digest : Digest256) (units : List CompilationUnitSpec) :
    Identified { request with units := units, requestIdentity := digest } before after ↔
      Identified request before after :=
  ⟨fun h => ⟨h.length_eq, h.written, h.assigned⟩, fun h => ⟨h.length_eq, h.written, h.assigned⟩⟩

theorem CompilationRequest.assembled_withUnits (r : CompilationRequest)
    (specialization : SpecializationSpec) (flags : List Bytes)
    (units units' : List CompilationUnitSpec) (digest digest' : Digest256) :
    { r.assembled specialization flags units digest with
      units := units', requestIdentity := digest' } =
      r.assembled specialization flags units' digest' := rfl

theorem CompilationRequest.requestRecord_assembled (r : CompilationRequest)
    (specialization : SpecializationSpec) (flags : List Bytes)
    (units : List CompilationUnitSpec) (digest digest' : Digest256) :
    requestRecord (r.assembled specialization flags units digest) =
      requestRecord (r.assembled specialization flags units digest') :=
  (requestRecord_withIdentity (r.assembled specialization flags units digest) digest').symm

theorem Identified.assembled_iff {r : CompilationRequest} {specialization : SpecializationSpec}
    {flags : List Bytes} {before after units units' : List CompilationUnitSpec}
    {digest digest' : Digest256} :
    Identified (r.assembled specialization flags units digest) before after ↔
      Identified (r.assembled specialization flags units' digest') before after := by
  rw [← r.assembled_withUnits specialization flags units units' digest digest']
  exact (Identified.of_units digest' units').symm

theorem canonicalize_eq_ok_iff (r c : CompilationRequest) :
    canonicalize r = .ok c ↔ Canonicalized r c := by
  rw [canonicalize]
  simp only [bind_eq_ok_iff, writes_eq_ok_iff, refuse_or_eq_ok_iff, forM_eq_ok_iff, exists_const,
    Bool.not_eq_true, identifyUnits_eq_ok_iff]
  constructor
  · rintro ⟨hidfits, hfits, hfamily, hpresent, htarget, hconcrete, spec, hspec, hdeps, flags, hflags,
      hnonempty, units, hunits, hchildren, hpolicy, henv, units', hidentified, hrequest, heq⟩
    have eq : c = r.assembled spec flags units'
        (deriveRequestIdentity (r.assembled spec flags units' r.requestIdentity)) :=
      (Except.ok.inj heq).symm
    have hrequest : (requestRecord (r.assembled spec flags units' r.requestIdentity)).fits = true :=
      hrequest
    have hidentified : Identified (r.assembled spec flags units r.requestIdentity) units units' :=
      hidentified
    generalize hd : deriveRequestIdentity (r.assembled spec flags units' r.requestIdentity) = d at eq
    subst eq
    exact {
      eq := rfl, toolchainId_fits := hidfits, toolchain_fits := hfits, family := hfamily
      toolchain_present := hpresent
      target_fits := (targetRecord_withId ..).symm ▸ htarget
      concrete := hconcrete, specialization := hspec, dependencies_fits := hdeps
      environment_fits := henv, flags := hflags, nonempty := hnonempty
      policy_fits := (policyRecord_withIdentity ..).symm ▸ hpolicy
      units := ⟨units, ⟨hunits, hchildren⟩, Identified.assembled_iff.mp hidentified⟩
      request_fits := r.requestRecord_assembled .. ▸ hrequest
      requestIdentity := hd.symm.trans (congrArg Record.hash (r.requestRecord_assembled ..)) }
  · intro h
    obtain ⟨units, ⟨hunits, hchildren⟩, hidentified⟩ := h.units
    rw [h.eq] at hidentified
    have target_fits := h.target_fits
    rw [h.target_eq, targetRecord_withId] at target_fits
    have policy_fits := h.policy_fits
    rw [h.policy_eq, policyRecord_withIdentity] at policy_fits
    have concrete := h.concrete
    rw [h.target_eq] at concrete
    have request_fits := h.request_fits
    rw [h.eq, r.requestRecord_assembled _ _ _ _ r.requestIdentity] at request_fits
    refine ⟨h.toolchain_eq ▸ h.toolchainId_fits, h.toolchain_eq ▸ h.toolchain_fits,
      h.toolchain_eq ▸ h.family, h.toolchain_eq ▸ h.toolchain_present, target_fits, concrete,
      c.specialization, h.specialization, h.dependencies_eq ▸ h.dependencies_fits, c.flags, h.flags,
      h.nonempty, units, hunits, hchildren, policy_fits, h.environment_eq ▸ h.environment_fits,
      c.units, Identified.assembled_iff.mp hidentified, request_fits, ?_⟩
    have identity : deriveRequestIdentity
        (r.assembled c.specialization c.flags c.units r.requestIdentity) = c.requestIdentity := by
      rw [h.requestIdentity, deriveRequestIdentity, deriveRequestIdentity,
        r.requestRecord_assembled _ _ _ r.requestIdentity c.requestIdentity, ← h.eq]
    have value : r.assembled c.specialization c.flags c.units (deriveRequestIdentity
        (r.assembled c.specialization c.flags c.units r.requestIdentity)) = c := by
      rw [identity]
      exact h.eq.symm
    exact congrArg Except.ok value

-- ---------------------------------------------------------------------------
-- Positions
-- ---------------------------------------------------------------------------

/-- Every unit stands at its own index. -/
def Dense (units : List CompilationUnitSpec) : Prop :=
  ∀ i, ∀ h : i < units.length, units[i].index.toNat = i

omit [HashFunction] in
theorem Dense.find? {units : List CompilationUnitSpec} (h : Dense units) (child : UInt32) :
    units.find? (·.index == child) = units[child.toNat]? := by
  rcases lt_or_ge child.toNat units.length with hlt | hge
  · have here : units[child.toNat].index = child := UInt32.toNat_inj.mp (h _ hlt)
    rw [List.getElem?_eq_getElem hlt, List.find?_eq_some_iff_getElem]
    refine ⟨by simp [here], _, hlt, rfl, fun j hj => ?_⟩
    have hne : units[j].index ≠ child := by
      intro heq
      have := h j (hj.trans hlt)
      rw [heq] at this
      omega
    simp [hne]
  · rw [List.getElem?_eq_none hge, List.find?_eq_none]
    intro unit hunit heq
    obtain ⟨i, hi, rfl⟩ := List.getElem_of_mem hunit
    have := h i hi
    rw [beq_iff_eq.mp heq] at this
    omega

theorem index_identified (unit : CompilationUnitSpec) (request : CompilationRequest) :
    (unit.identified request).index = unit.index := rfl

namespace Identified

variable {request : CompilationRequest} {before after : List CompilationUnitSpec}
  (h : Identified request before after)

include h

theorem getElem {i : Nat} (hi : i < before.length) (hi' : i < after.length) :
    after[i] = before[i].identified (identifiedIn request before after i) := by
  have := h.assigned i hi
  rw [List.getElem?_eq_getElem hi'] at this
  exact Option.some.inj this

theorem dense (hd : Dense before) : Dense after := by
  intro i hi
  rw [h.getElem (h.length_eq ▸ hi) hi, index_identified]
  exact hd i _

/-- The units at position `i` of the loop: new before `i`, old from `i` on. -/
theorem getElem?_units {i : Nat} (hi : i < before.length) (j : Nat) :
    (identifiedIn request before after i).units[j]? =
      if j < i then after[j]? else before[j]? := by
  show (after.take i ++ before.drop i)[j]? = _
  have hlen : (after.take i).length = i := by
    rw [List.length_take, h.length_eq]
    omega
  split
  · next hj => rw [List.getElem?_append_left (by omega), List.getElem?_take_of_lt hj]
  · next hj =>
    rw [List.getElem?_append_right (by omega), List.getElem?_drop, hlen]
    congr 1
    omega

/-- A unit's record reads the new identity of a child before it and the old one
of a child after it. -/
theorem findUnit (hd : Dense before) {i : Nat} (hi : i < before.length) (child : UInt32) :
    (identifiedIn request before after i).findUnit child =
      if child.toNat < i then after[child.toNat]? else before[child.toNat]? := by
  have dense : Dense (identifiedIn request before after i).units := by
    intro j hj
    have hget := h.getElem?_units hi j
    rw [List.getElem?_eq_getElem hj] at hget
    split at hget
    · obtain ⟨hj', heq⟩ := List.getElem?_eq_some_iff.mp hget.symm
      rw [← heq]
      exact h.dense hd j hj'
    · obtain ⟨hj', heq⟩ := List.getElem?_eq_some_iff.mp hget.symm
      rw [← heq]
      exact hd j hj'
  rw [CompilationRequest.findUnit, dense.find?, h.getElem?_units hi]

end Identified

theorem canonicalizeUnits_eq_ok_iff {policy : CompilePolicy} {n : Nat}
    {units units' : List CompilationUnitSpec} :
    canonicalizeUnits policy n units = .ok units' ↔
      (∀ i, ∀ h : i < units.length, units[i].index.toNat = n + i) ∧
        List.Forall₂ (fun unit unit' => canonicalizeUnit policy unit = .ok unit') units units' := by
  induction units generalizing n units' with
  | nil =>
    rw [canonicalizeUnits]
    constructor
    · rintro ⟨⟩; exact ⟨nofun, .nil⟩
    · rintro ⟨-, ⟨⟩⟩; rfl
  | cons unit units ih =>
    rw [canonicalizeUnits, refuse_or_eq_ok_iff, bind_eq_ok_iff, not_not]
    constructor
    · rintro ⟨hindex, unit', hunit, hbind⟩
      obtain ⟨rest', hrest, heq⟩ := bind_eq_ok_iff.mp hbind
      cases heq
      obtain ⟨hindices, hunits⟩ := ih.mp hrest
      refine ⟨?_, .cons hunit hunits⟩
      rintro (_ | i) hi
      · exact hindex
      · have := hindices i (by simpa using hi)
        rw [List.getElem_cons_succ, this]
        omega
    · rintro ⟨hindices, hunits⟩
      cases hunits with
      | cons hunit hunits =>
        refine ⟨hindices 0 (Nat.succ_pos _), _, hunit, bind_eq_ok_iff.mpr ⟨_, ih.mpr ⟨?_, hunits⟩, rfl⟩⟩
        intro i hi
        have := hindices (i + 1) (Nat.succ_lt_succ hi)
        rw [List.getElem_cons_succ] at this
        omega

omit [HashFunction] in
theorem checkChildren_eq_ok_iff {size : Nat} {index : UInt32} {children : List UInt32} :
    checkChildren size index children = .ok () ↔
      ∀ child ∈ children, child.toNat < size ∧ child ≠ index := by
  induction children with
  | nil => exact ⟨fun _ _ h => (List.not_mem_nil h).elim, fun _ => rfl⟩
  | cons child rest ih =>
    rw [checkChildren, refuse_or_eq_ok_iff, refuse_or_eq_ok_iff, ih, List.forall_mem_cons, not_le,
      and_assoc]

/-- A list of flags and its canonical form. -/
def FlagsCanonicalized (policy : CompilePolicy) (flags flags' : List Bytes) : Prop :=
  (∀ flag ∈ flags, (trim flag).isEmpty = false ∧ containsControl (trim flag) = false) ∧
    flags' = if policy.flagOrderSignificant then flags.map trim
      else sortBy compare (flags.map trim)

omit [HashFunction] in
theorem canonicalizeFlag_eq_ok_iff {empty control flag flag' : Bytes} :
    canonicalizeFlag empty control flag = .ok flag' ↔
      ((trim flag).isEmpty = false ∧ containsControl (trim flag) = false) ∧ flag' = trim flag := by
  rw [canonicalizeFlag, refuse_or_eq_ok_iff, refuse_or_eq_ok_iff, Bool.not_eq_true, Bool.not_eq_true, and_assoc]
  refine and_congr_right fun _ => and_congr_right fun _ => ?_
  exact ⟨fun h => (Except.ok.inj h).symm, fun h => congrArg Except.ok h.symm⟩

omit [HashFunction] in
/-- The texts of the refusals do not matter to what is accepted. -/
theorem canonicalizeFlags_eq_ok_iff {policy : CompilePolicy} {empty control : Bytes}
    {flags flags' : List Bytes} :
    canonicalizeFlags policy empty control flags = .ok flags' ↔
      FlagsCanonicalized policy flags flags' := by
  rw [canonicalizeFlags, bind_eq_ok_iff]
  have trimmed : ∀ cleaned, flags.mapM (canonicalizeFlag empty control) = .ok cleaned ↔
      (∀ flag ∈ flags, (trim flag).isEmpty = false ∧ containsControl (trim flag) = false) ∧
        cleaned = flags.map trim := by
    intro cleaned
    rw [mapM_eq_ok_iff]
    induction flags generalizing cleaned with
    | nil => simp
    | cons flag flags ih =>
      cases cleaned with
      | nil => simp
      | cons flag' cleaned =>
        rw [List.forall₂_cons, canonicalizeFlag_eq_ok_iff, ih, List.forall_mem_cons, List.map_cons,
          List.cons.injEq]
        tauto
  constructor
  · rintro ⟨cleaned, hcleaned, heq⟩
    obtain ⟨hclean, rfl⟩ := (trimmed cleaned).mp hcleaned
    exact ⟨hclean, (Except.ok.inj heq).symm⟩
  · rintro ⟨hclean, rfl⟩
    exact ⟨_, (trimmed _).mpr ⟨hclean, rfl⟩, rfl⟩

/-- A unit and its canonical form. -/
structure UnitCanonicalized (policy : CompilePolicy) (unit unit' : CompilationUnitSpec) : Prop where
  eq : unit' = { unit with
    sources := unit'.sources, dependencies := unit'.dependencies, flags := unit'.flags
    childUnits := uniqueBy (· == ·) (sortBy compare unit.childUnits)
    logicalName := trim unit.logicalName }
  sources : ∃ sources, unit.sources.mapM canonicalizeSource = .ok sources ∧
    unit'.sources = sortBy compareSource sources
  distinct : duplicateName? (·.logicalName) unit'.sources = none
  populated : (unit'.sources.isEmpty && unit.kind != .link) = false
  dependencies : ∃ dependencies, unit.dependencies.mapM canonicalizeDependency = .ok dependencies ∧
    unit'.dependencies = sortBy compareDependency dependencies
  flags : FlagsCanonicalized policy unit.flags unit'.flags
  named : unit'.logicalName.isEmpty = false
  linked : ¬(unit.kind = .link ∧ unit'.childUnits = [])

theorem canonicalizeUnit_eq_ok_iff {policy : CompilePolicy} {unit unit' : CompilationUnitSpec} :
    canonicalizeUnit policy unit = .ok unit' ↔ UnitCanonicalized policy unit unit' := by
  rw [canonicalizeUnit, bind_eq_ok_iff]
  constructor
  · rintro ⟨sources, hsources, h⟩
    dsimp only at h
    split at h
    · cases h
    next hdistinct =>
    rw [refuse_or_eq_ok_iff, bind_eq_ok_iff] at h
    obtain ⟨hpopulated, dependencies, hdependencies, h⟩ := h
    obtain ⟨flags, hflags, h⟩ := bind_eq_ok_iff.mp h
    rw [refuse_or_eq_ok_iff, refuse_or_eq_ok_iff] at h
    obtain ⟨hnamed, hlinked, heq⟩ := h
    cases heq
    exact {
      eq := rfl, sources := ⟨sources, hsources, rfl⟩, distinct := hdistinct
      populated := Bool.not_eq_true _ ▸ hpopulated
      dependencies := ⟨dependencies, hdependencies, rfl⟩
      flags := canonicalizeFlags_eq_ok_iff.mp hflags
      named := Bool.not_eq_true _ ▸ hnamed, linked := hlinked }
  · intro h
    obtain ⟨sources, hsources, hsorted⟩ := h.sources
    obtain ⟨dependencies, hdependencies, hdepsorted⟩ := h.dependencies
    have hdistinct := h.distinct
    have hpopulated := h.populated
    have hnamed := h.named
    have hlinked := h.linked
    rw [hsorted] at hdistinct hpopulated
    rw [h.eq] at hnamed hlinked
    refine ⟨sources, hsources, ?_⟩
    dsimp only
    rw [hdistinct]
    dsimp only
    rw [refuse_or_eq_ok_iff, bind_eq_ok_iff]
    refine ⟨by rw [hpopulated]; decide, dependencies, hdependencies, bind_eq_ok_iff.mpr
      ⟨unit'.flags, canonicalizeFlags_eq_ok_iff.mpr h.flags, ?_⟩⟩
    rw [refuse_or_eq_ok_iff, refuse_or_eq_ok_iff]
    refine ⟨by rw [hnamed]; decide, hlinked, congrArg Except.ok ?_⟩
    rw [← hsorted, ← hdepsorted]
    exact h.eq.symm

theorem canonicalizeUnit_eq_ok {policy : CompilePolicy} {unit unit' : CompilationUnitSpec}
    (h : canonicalizeUnit policy unit = .ok unit') :
    unit'.index = unit.index ∧ unit'.identityDigest = unit.identityDigest := by
  rw [(canonicalizeUnit_eq_ok_iff.mp h).eq]
  exact ⟨rfl, rfl⟩

namespace Laid

variable {r : CompilationRequest} {units : List CompilationUnitSpec} (h : Laid r units)

include h

theorem sorted_dense : Dense (sortBy (fun a b => compare a.index b.index) r.units) := by
  intro i hi
  rw [(canonicalizeUnits_eq_ok_iff.mp h.canonical).1 i hi, Nat.zero_add]

/-- A submitted index names the unit that stands there after sorting. -/
theorem findUnit_eq (child : UInt32) : r.findUnit child =
    (sortBy (fun a b => compare a.index b.index) r.units)[child.toNat]? := by
  rw [CompilationRequest.findUnit]
  cases hfind : r.units.find? (·.index == child) with
  | none =>
    rw [← h.sorted_dense.find?, eq_comm, List.find?_eq_none]
    intro unit hunit
    exact List.find?_eq_none.mp hfind unit (mem_sortBy.mp hunit)
  | some unit =>
    have hmem : unit ∈ sortBy (fun a b => compare a.index b.index) r.units :=
      mem_sortBy.mpr (List.mem_of_find?_eq_some hfind)
    obtain ⟨i, hi, hget⟩ := List.getElem_of_mem hmem
    have hindex := h.sorted_dense i hi
    rw [hget, beq_iff_eq.mp (List.find?_some hfind :)] at hindex
    rw [hindex, List.getElem?_eq_getElem hi, hget]

theorem length_eq : units.length = r.units.length := by
  obtain ⟨-, hunits⟩ := canonicalizeUnits_eq_ok_iff.mp h.canonical
  rw [← hunits.length_eq, length_sortBy]

/-- The unit a submitted index names, canonicalized, stands at that position. -/
theorem getElem?_of_findUnit {child : UInt32} {unit : CompilationUnitSpec}
    (hfind : r.findUnit child = some unit) :
    ∃ unit', UnitCanonicalized r.policy unit unit' ∧ units[child.toNat]? = some unit' := by
  obtain ⟨-, hunits⟩ := canonicalizeUnits_eq_ok_iff.mp h.canonical
  rw [h.findUnit_eq] at hfind
  obtain ⟨hlt, rfl⟩ := List.getElem?_eq_some_iff.mp hfind
  have hlt' := hunits.length_eq ▸ hlt
  have hget := hunits.get hlt hlt'
  simp only [List.get_eq_getElem] at hget
  exact ⟨_, canonicalizeUnit_eq_ok_iff.mp hget, List.getElem?_eq_getElem hlt'⟩

theorem getElem?_of_none {child : UInt32} (hfind : r.findUnit child = none) :
    units[child.toNat]? = none := by
  rw [h.findUnit_eq, List.getElem?_eq_none_iff, length_sortBy, ← h.length_eq] at hfind
  exact List.getElem?_eq_none hfind

theorem dense : Dense units := by
  obtain ⟨hindex, hunits⟩ := canonicalizeUnits_eq_ok_iff.mp h.canonical
  intro i hi
  have hi' := hunits.length_eq ▸ hi
  have hget := hunits.get hi' hi
  simp only [List.get_eq_getElem] at hget
  rw [(canonicalizeUnit_eq_ok hget).1, hindex i hi', Nat.zero_add]

theorem child_lt {i : Nat} (hi : i < units.length) {child : UInt32}
    (hchild : child ∈ units[i].childUnits) : child.toNat < units.length ∧ child.toNat ≠ i := by
  have := checkChildren_eq_ok_iff.mp (h.children _ (List.getElem_mem hi)) child hchild
  refine ⟨this.1, fun heq => this.2 (UInt32.toNat_inj.mp ?_)⟩
  rw [heq, h.dense i hi]

end Laid

end DistributedCompilation
