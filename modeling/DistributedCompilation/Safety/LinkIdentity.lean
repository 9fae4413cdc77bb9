import DistributedCompilation.Base.Evaluation
import DistributedCompilation.Codec.UnitRecord
import DistributedCompilation.Domain.Identification

/-!
# Distributed Compilation — what the identity of a link unit binds

A unit record names the children of the unit with their identity digests. The
identities are assigned in index order, so a record sees the new identity of a
child *below* its own index and the digest the client supplied for a child
*above* it.

Two accepted requests are compared (`Compared`): `digest_eq_iff` says when one
position has the same identity in both, `identity_differs_iff` follows a change
of content up the child lists, and `link_identity_iff` is the resulting
characterization. The hash is assumed injective on the unit records of the two
requests only.
-/

namespace DistributedCompilation

-- ---------------------------------------------------------------------------
-- Child lists
-- ---------------------------------------------------------------------------

namespace CompilationRequest

/-- Unit `q` is among the children of `p`, their children, and so on. -/
def Reaches (c : CompilationRequest) : UInt32 → UInt32 → Prop := Relation.TransGen c.Lists

/-- The same along child lists that only name smaller indices. -/
def Descends (c : CompilationRequest) : UInt32 → UInt32 → Prop :=
  Relation.TransGen fun p q => c.Lists p q ∧ q < p

end CompilationRequest

/-- Everything a unit says, its identity apart. -/
def CompilationUnitSpec.contents (unit : CompilationUnitSpec) : CompilationUnitSpec :=
  { unit with
    identityDigest := .zero
    sources := unit.sources.map UnitSource.bare
    dependencies := unit.dependencies.map DependencyEntry.bare }

/-- What unit `p` of a request says. -/
def CompilationRequest.contentsOf (c : CompilationRequest) (p : UInt32) :
    Option CompilationUnitSpec := (c.findUnit p).map (·.contents)

section

variable [HashFunction]

/-- No two of the records hashed for `r` and `r'` collide. -/
def CollisionFree (r r' : CompilationRequest) : Prop :=
  Set.InjOn sha256 { bytes | bytes ∈ hashedUnits r ++ hashedUnits r' }

-- ---------------------------------------------------------------------------
-- Two requests side by side
-- ---------------------------------------------------------------------------

/-- The units of two accepted requests before and after they were identified;
the requests agree on what is not in the units. -/
structure Compared (c c' : CompilationRequest) (before before' : List CompilationUnitSpec) :
    Prop where
  header : c' = { c with units := c'.units, requestIdentity := c'.requestIdentity }
  identified : Identified c before c.units
  identified' : Identified c' before' c'.units
  dense : Dense before
  dense' : Dense before'
  length_eq : before'.length = before.length
  children : ∀ i, ∀ h : i < before.length, ∀ child ∈ before[i].childUnits,
    child.toNat < before.length ∧ child.toNat ≠ i
  injective : ∀ i, ∀ h : i < before.length, ∀ h' : i < before'.length,
    (unitRecord (identifiedIn c before c.units i) before[i]).hash =
      (unitRecord (identifiedIn c' before' c'.units i) before'[i]).hash →
    (unitRecord (identifiedIn c before c.units i) before[i]).bytes =
      (unitRecord (identifiedIn c' before' c'.units i) before'[i]).bytes

/-- What the units say at a position. -/
def contentsAt (units : List CompilationUnitSpec) (i : Nat) : Option CompilationUnitSpec :=
  units[i]?.map (·.contents)

namespace Compared

variable {c c' : CompilationRequest} {before before' : List CompilationUnitSpec}
  (h : Compared c c' before before')

include h

theorem digestAt_eq {i : Nat} (hi : i < before.length) :
    digestAt c.units i = some (unitRecord (identifiedIn c before c.units i) before[i]).hash := by
  rw [digestAt, h.identified.assigned i hi]
  rfl

theorem digestAt_eq' {i : Nat} (hi : i < before'.length) :
    digestAt c'.units i = some (unitRecord (identifiedIn c' before' c'.units i) before'[i]).hash := by
  rw [digestAt, h.identified'.assigned i hi]
  rfl

theorem lt' {i : Nat} (hi : i < before.length) : i < before'.length := h.length_eq ▸ hi

/-- One position: the identities agree when the records are about the same. -/
theorem digest_eq_iff {i : Nat} (hi : i < before.length) (hi' : i < before'.length) :
    digestAt c.units i = digestAt c'.units i ↔
      unitBody (identifiedIn c before c.units i) before[i] =
        unitBody (identifiedIn c' before' c'.units i) before'[i] := by
  rw [h.digestAt_eq hi, h.digestAt_eq' hi', Option.some.injEq]
  constructor
  · intro heq
    exact unitBody_eq_of_bytes (h.identified.written i hi) (h.identified'.written i hi')
      (h.injective i hi hi' heq)
  · intro heq
    rw [unitRecord_eq_of_body heq]

/-- Where the contents agree, the records are about the same exactly when the
children carry the same digests: new ones below the position, supplied ones
above it. -/
theorem body_eq_iff {i : Nat} (hi : i < before.length) (hi' : i < before'.length)
    (same : contentsAt before i = contentsAt before' i) :
    unitBody (identifiedIn c before c.units i) before[i] =
        unitBody (identifiedIn c' before' c'.units i) before'[i] ↔
      ∀ child ∈ before[i].childUnits,
        if child.toNat < i then digestAt c.units child.toNat = digestAt c'.units child.toNat
        else digestAt before child.toNat = digestAt before' child.toNat := by
  rw [contentsAt, contentsAt, List.getElem?_eq_getElem hi, List.getElem?_eq_getElem hi',
    Option.map_some, Option.map_some, Option.some.injEq] at same
  have bodies : unitBody (identifiedIn c before c.units i) before[i] =
        unitBody (identifiedIn c' before' c'.units i) before'[i] ↔
      before[i].childUnits.map (identifiedIn c before c.units i).child =
        before[i].childUnits.map (identifiedIn c' before' c'.units i).child := by
    simp only [CompilationUnitSpec.contents, CompilationUnitSpec.mk.injEq] at same
    rw [h.header]
    simp only [unitBody, UnitBody.mk.injEq, identifiedIn, same, true_and, and_true]
  rw [bodies, List.map_inj_left]
  refine forall₂_congr fun child hchild => ?_
  have some_of_lt : ∀ {units : List CompilationUnitSpec}, units.length = before.length →
      ∃ digest, digestAt units child.toNat = some digest := by
    intro units hlen
    refine ⟨_, congrArg (Option.map _) (List.getElem?_eq_getElem ?_)⟩
    rw [hlen]
    exact (h.children i hi child hchild).1
  rw [h.identified.child_eq h.dense hi, h.identified'.child_eq h.dense' hi', Prod.mk.injEq, and_iff_right rfl]
  split
  · obtain ⟨d, hd⟩ := some_of_lt h.identified.length_eq
    obtain ⟨d', hd'⟩ := some_of_lt (h.identified'.length_eq.trans h.length_eq)
    rw [hd, hd', Option.getD_some, Option.getD_some, Option.some.injEq]
  · obtain ⟨d, hd⟩ := @some_of_lt before rfl
    obtain ⟨d', hd'⟩ := some_of_lt h.length_eq
    rw [hd, hd', Option.getD_some, Option.getD_some, Option.some.injEq]

/-- Equal records come from equal contents. -/
theorem contents_eq_of_body {i : Nat} (hi : i < before.length) (hi' : i < before'.length)
    (heq : unitBody (identifiedIn c before c.units i) before[i] =
      unitBody (identifiedIn c' before' c'.units i) before'[i]) :
    contentsAt before i = contentsAt before' i := by
  have index : before[i].index = before'[i].index := by
    rw [← UInt32.toNat_inj, h.dense i hi, h.dense' i hi']
  simp only [unitBody, UnitBody.mk.injEq] at heq
  obtain ⟨-, -, -, -, -, -, hkind, hname, houtput, hsources, hdeps, hflags, -, hchildren,
    hmandatory⟩ := heq
  have children : before[i].childUnits = before'[i].childUnits := by
    have := congrArg (List.map Prod.fst) hchildren
    rw [List.map_map, List.map_map] at this
    simpa [Function.comp_def, CompilationRequest.child] using this
  rw [contentsAt, contentsAt, List.getElem?_eq_getElem hi, List.getElem?_eq_getElem hi',
    Option.map_some, Option.map_some, Option.some.injEq]
  simp only [CompilationUnitSpec.contents, CompilationUnitSpec.mk.injEq]
  exact ⟨index, hname, hkind, hsources, hdeps, hflags, houtput, children, hmandatory, trivial⟩

/-- The child lists of the canonical request. -/
theorem lists_iff {p q : UInt32} (hp : p.toNat < before.length) :
    c.Lists p q ↔ q ∈ before[p.toNat].childUnits := by
  rw [CompilationRequest.Lists, CompilationRequest.findUnit, (h.identified.dense h.dense).find?,
    h.identified.assigned _ hp]
  constructor
  · rintro ⟨_, ⟨⟩, hq⟩; exact hq
  · intro hq; exact ⟨_, rfl, hq⟩

theorem lt_of_lists {p q : UInt32} (hpq : c.Lists p q) : p.toNat < before.length := by
  obtain ⟨unit, hfind, -⟩ := hpq
  rw [CompilationRequest.findUnit, (h.identified.dense h.dense).find?] at hfind
  rw [← h.identified.length_eq]
  exact (List.getElem?_eq_some_iff.mp hfind).1

theorem identityOf_eq (p : UInt32) : c.identityOf p = digestAt c.units p.toNat := by
  rw [CompilationRequest.identityOf, CompilationRequest.findUnit,
    (h.identified.dense h.dense).find?]
  rfl

theorem identityOf_eq' (p : UInt32) : c'.identityOf p = digestAt c'.units p.toNat := by
  rw [CompilationRequest.identityOf, CompilationRequest.findUnit,
    (h.identified'.dense h.dense').find?]
  rfl

/-- A change of what unit `k` says changes the identities of the units above it
along descending child lists, and no others. -/
theorem identity_differs_iff {k : UInt32}
    (only : ∀ i, i ≠ k.toNat → contentsAt before i = contentsAt before' i)
    (differ : contentsAt before k.toNat ≠ contentsAt before' k.toNat)
    (supplied : ∀ i, digestAt before i = digestAt before' i) {p : UInt32}
    (hp : p.toNat < before.length) :
    c.identityOf p ≠ c'.identityOf p ↔ p = k ∨ c.Descends p k := by
  -- a record reads new digests of smaller indices only, so the induction is on the index
  induction hn : p.toNat using Nat.strong_induction_on generalizing p with
  | _ n ih =>
    subst hn
    rw [h.identityOf_eq, h.identityOf_eq', Ne, h.digest_eq_iff hp (h.lt' hp)]
    by_cases hk : p = k
    · subst hk
      refine iff_of_true (fun heq => differ (h.contents_eq_of_body hp (h.lt' hp) heq)) (.inl rfl)
    · rw [h.body_eq_iff hp (h.lt' hp) (only _ fun heq => hk (UInt32.toNat_inj.mp heq))]
      constructor
      · intro hne
        push Not at hne
        obtain ⟨child, hchild, hne⟩ := hne
        split at hne
        · next hlt =>
          have hin := (h.children _ hp child hchild).1
          rw [← h.identityOf_eq, ← h.identityOf_eq'] at hne
          have step : c.Lists p child ∧ child < p := ⟨(h.lists_iff hp).mpr hchild, hlt⟩
          rcases (ih _ hlt hin rfl).mp hne with rfl | hdown
          · exact .inr (.single step)
          · exact .inr (.head step hdown)
        · exact absurd (supplied _) hne
      · intro hdown hall
        obtain ⟨child, ⟨hlists, hlt⟩, hrest⟩ :=
          Relation.TransGen.head'_iff.mp (hdown.resolve_left hk)
        have hchild := (h.lists_iff hp).mp hlists
        have heq := hall child hchild
        rw [if_pos (UInt32.lt_iff_toNat_lt.mp hlt), ← h.identityOf_eq, ← h.identityOf_eq'] at heq
        refine (ih _ hlt (h.children _ hp child hchild).1 rfl).mpr ?_ heq
        rcases Relation.reflTransGen_iff_eq_or_transGen.mp hrest with heq | hrest
        · exact .inl heq.symm
        · exact .inr hrest

/-- Where the units say the same, the identities agree exactly when the digests
supplied for children above their parents do. -/
theorem identities_eq_iff (same : ∀ i, contentsAt before i = contentsAt before' i) :
    (∀ p, c.identityOf p = c'.identityOf p) ↔
      ∀ p q, c.Lists p q → ¬q < p → digestAt before q.toNat = digestAt before' q.toNat := by
  constructor
  · intro heq p q hlists habove
    have hp := h.lt_of_lists hlists
    have hbody := heq p
    rw [h.identityOf_eq, h.identityOf_eq', h.digest_eq_iff hp (h.lt' hp), h.body_eq_iff hp (h.lt' hp) (same _)] at hbody
    have := hbody q ((h.lists_iff hp).mp hlists)
    rwa [if_neg fun hlt => habove (UInt32.lt_iff_toNat_lt.mpr hlt)] at this
  · intro supplied p
    rw [h.identityOf_eq, h.identityOf_eq']
    induction hn : p.toNat using Nat.strong_induction_on generalizing p with
    | _ n ih =>
      subst hn
      rcases lt_or_ge p.toNat before.length with hp | hp
      · rw [h.digest_eq_iff hp (h.lt' hp), h.body_eq_iff hp (h.lt' hp) (same _)]
        intro child hchild
        split
        · next hlt => exact ih _ hlt child rfl
        · next hge => exact supplied p child ((h.lists_iff hp).mpr hchild) fun hlt => hge hlt
      · rw [digestAt, digestAt, List.getElem?_eq_none (h.identified.length_eq ▸ hp),
          List.getElem?_eq_none ((h.identified'.length_eq.trans h.length_eq) ▸ hp)]

end Compared

-- ---------------------------------------------------------------------------
-- Supplied identities
-- ---------------------------------------------------------------------------

/-- A request without the identity digests its client wrote into it. -/
def CompilationRequest.withoutIdentities (r : CompilationRequest) : CompilationRequest :=
  { r with
    toolchain := { r.toolchain with identityDigest := .zero }
    target := { r.target with identityDigest := .zero }
    specialization := { r.specialization with identityDigest := .zero }
    policy := { r.policy with identityDigest := .zero }
    dependencies := { r.dependencies with
      identityDigest := .zero
      entries := r.dependencies.entries.map DependencyEntry.bare }
    units := r.units.map (·.contents)
    requestIdentity := .zero }

theorem canonicalizeToolchain_withIdentity (toolchain : ToolchainIdentity) (digest : Digest256) :
    canonicalizeToolchain { toolchain with identityDigest := digest } =
      canonicalizeToolchain toolchain := by
  simp only [canonicalizeToolchain]
  split <;> rfl

theorem canonicalizeDependencySet_bare (set : DependencySet) (digest : Digest256) :
    canonicalizeDependencySet { set with
      identityDigest := digest, entries := set.entries.map DependencyEntry.bare } =
      canonicalizeDependencySet set := by
  have entries : ∀ entries : List DependencyEntry,
      (uniqueBy (fun a b => a.name == b.name && a.kind == b.kind &&
          a.content.digest == b.content.digest && a.content.size == b.content.size)
        (sortBy compareDependency (entries.map DependencyEntry.bare))).map
          (fun entry => { entry with identityDigest := computeDependencyEntryIdentity entry }) =
      (uniqueBy (fun a b => a.name == b.name && a.kind == b.kind &&
          a.content.digest == b.content.digest && a.content.size == b.content.size)
        (sortBy compareDependency entries)).map
          (fun entry => { entry with identityDigest := computeDependencyEntryIdentity entry }) := by
    intro entries
    rw [sortBy_map DependencyEntry.bare (fun _ _ => rfl), uniqueBy_map DependencyEntry.bare
      (fun _ _ => rfl), List.map_map]
    rfl
  simp only [canonicalizeDependencySet, entries, deriveDependencySetId,
    computeDependencySetIdentity, dependencySetRecord]

theorem canonicalizeSpecialization_withIdentity (spec : SpecializationSpec) (digest : Digest256) :
    canonicalizeSpecialization { spec with identityDigest := digest } =
      canonicalizeSpecialization spec := rfl

/-- No supplied identity survives outside the units. -/
theorem assembled_withoutIdentities (r : CompilationRequest) (specialization : SpecializationSpec)
    (flags : List Bytes) (units : List CompilationUnitSpec) (digest : Digest256) :
    r.withoutIdentities.assembled specialization flags units digest =
      r.assembled specialization flags units digest := by
  simp only [CompilationRequest.assembled, CompilationRequest.withoutIdentities,
    canonicalizeToolchain_withIdentity, canonicalizeDependencySet_bare]
  rfl

/-- What a canonical unit says depends on what the submitted one says. -/
theorem contents_eq_of_canonicalized {policy policy' : CompilePolicy}
    {a a' b b' : CompilationUnitSpec} (ha : UnitCanonicalized policy a a')
    (hb : UnitCanonicalized policy' b b')
    (order : policy'.flagOrderSignificant = policy.flagOrderSignificant)
    (same : a.contents = b.contents) : a'.contents = b'.contents := by
  simp only [CompilationUnitSpec.contents, CompilationUnitSpec.mk.injEq] at same
  obtain ⟨hindex, hname, hkind, hsources, hdeps, hflags, houtput, hchildren, hmandatory, -⟩ := same
  have sources : a'.sources = b'.sources := by
    obtain ⟨x, hx, hxs⟩ := ha.sources
    obtain ⟨y, hy, hys⟩ := hb.sources
    have bare : ∀ sources : List UnitSource, (sources.map UnitSource.bare).mapM canonicalizeSource =
        sources.mapM canonicalizeSource := fun sources => List.mapM_map
    rw [← bare, hsources, bare, hy] at hx
    rw [hxs, hys, Except.ok.inj hx]
  have dependencies : a'.dependencies = b'.dependencies := by
    obtain ⟨x, hx, hxs⟩ := ha.dependencies
    obtain ⟨y, hy, hys⟩ := hb.dependencies
    have bare : ∀ deps : List DependencyEntry,
        (deps.map DependencyEntry.bare).mapM canonicalizeDependency =
        deps.mapM canonicalizeDependency := fun deps => List.mapM_map
    rw [← bare, hdeps, bare, hy] at hx
    rw [hxs, hys, Except.ok.inj hx]
  have flags : a'.flags = b'.flags := by
    rw [ha.flags.2, hb.flags.2, hflags, order]
  rw [ha.eq, hb.eq]
  simp only [CompilationUnitSpec.contents, CompilationUnitSpec.mk.injEq]
  exact ⟨hindex, by rw [hname], hkind, by rw [sources], by rw [dependencies], flags, houtput,
    by rw [hchildren], hmandatory, trivial⟩

-- ---------------------------------------------------------------------------
-- Two submitted requests
-- ---------------------------------------------------------------------------

/-- What a request says outside its units. -/
def CompilationRequest.header (r : CompilationRequest) : CompilationRequest :=
  { r.withoutIdentities with units := [] }

theorem assembled_header (r : CompilationRequest) (specialization : SpecializationSpec)
    (flags : List Bytes) (units : List CompilationUnitSpec) (digest : Digest256) :
    r.header.assembled specialization flags units digest =
      r.assembled specialization flags units digest :=
  assembled_withoutIdentities r specialization flags units digest

/-- Outside the units, the canonical forms of requests that say the same agree. -/
theorem Canonicalized.header_eq {r r' c c' : CompilationRequest} (h : Canonicalized r c)
    (h' : Canonicalized r' c') (same : r'.header = r.header) :
    c' = { c with units := c'.units, requestIdentity := c'.requestIdentity } := by
  have specialization : c'.specialization = c.specialization := by
    have spec : canonicalizeSpecialization r.header.specialization = .ok c.specialization :=
      (canonicalizeSpecialization_withIdentity _ _).trans h.specialization
    have spec' : canonicalizeSpecialization r'.header.specialization = .ok c'.specialization :=
      (canonicalizeSpecialization_withIdentity _ _).trans h'.specialization
    rw [same, spec] at spec'
    exact (Except.ok.inj spec').symm
  have flags : c'.flags = c.flags := by
    have hflags := (canonicalizeFlags_eq_ok_iff.mp h.flags).2
    have hflags' := (canonicalizeFlags_eq_ok_iff.mp h'.flags).2
    rw [hflags, hflags', show r'.flags = r.flags from congrArg (·.flags) same,
      show r'.policy.flagOrderSignificant = r.policy.flagOrderSignificant from
        congrArg (·.policy.flagOrderSignificant) same]
  calc c' = r'.assembled c'.specialization c'.flags c'.units c'.requestIdentity := h'.eq
    _ = r.assembled c.specialization c.flags c'.units c'.requestIdentity := by
      rw [← assembled_header, same, assembled_header, specialization, flags]
    _ = { c with units := c'.units, requestIdentity := c'.requestIdentity } := by
      rw [← r.assembled_withUnits c.specialization c.flags c.units c'.units c.requestIdentity
        c'.requestIdentity, ← h.eq]

/-- Two accepted requests that agree outside their units and have units at the
same indices are compared. -/
theorem compared_of_canonicalized {r r' c c' : CompilationRequest} (hr : canonicalize r = .ok c)
    (hr' : canonicalize r' = .ok c') (same : r'.header = r.header)
    (size : ∀ j, (r'.findUnit j).isSome = (r.findUnit j).isSome)
    (injective : CollisionFree r r') :
    ∃ before before', Laid r before ∧ Laid r' before' ∧ Compared c c' before before' := by
  have h := (canonicalize_eq_ok_iff r c).mp hr
  have h' := (canonicalize_eq_ok_iff r' c').mp hr'
  obtain ⟨before, hlaid, hidentified⟩ := h.units
  obtain ⟨before', hlaid', hidentified'⟩ := h'.units
  have reach : ∀ {q q' : CompilationRequest} {units units' : List CompilationUnitSpec},
      Laid q units → Laid q' units' → (∀ j, (q'.findUnit j).isSome = (q.findUnit j).isSome) →
      units.length ≤ units'.length := by
    intro q q' units units' hq hq' hsome
    by_contra hlt
    push Not at hlt
    have index := hq.dense _ hlt
    have here := hsome units[units'.length].index
    cases hfind : q'.findUnit units[units'.length].index with
    | some unit =>
      obtain ⟨_, -, hget⟩ := hq'.getElem?_of_findUnit hfind
      rw [index, List.getElem?_eq_none le_rfl] at hget
      cases hget
    | none =>
      rw [hfind, Option.isSome_none, eq_comm, Option.isSome_eq_false_iff, Option.isNone_iff_eq_none]
        at here
      have hnone := hq.getElem?_of_none here
      rw [index, List.getElem?_eq_getElem hlt] at hnone
      cases hnone
  refine ⟨before, before', hlaid, hlaid', {
    header := h.header_eq h' same
    identified := hidentified, identified' := hidentified'
    dense := hlaid.dense, dense' := hlaid'.dense
    length_eq := le_antisymm (reach hlaid' hlaid fun j => (size j).symm) (reach hlaid hlaid' size)
    children := fun i hi child hchild => hlaid.child_lt hi hchild
    injective := fun i hi hi' heq => injective ?_ ?_ heq }⟩
  · exact List.mem_append_left _ (mem_hashedUnits hr hlaid hi)
  · exact List.mem_append_right _ (mem_hashedUnits hr' hlaid' hi')

/-- Two submitted requests that agree on everything except what unit `k` says. -/
structure AgreeExcept (k : UInt32) (r r' : CompilationRequest) : Prop where
  header : r'.header = r.header
  others : ∀ j, j ≠ k → r'.findUnit j = r.findUnit j
  identity : r'.identityOf k = r.identityOf k

/-- Two submitted requests that differ in supplied identity digests at most. -/
def SayTheSame (r r' : CompilationRequest) : Prop := r'.withoutIdentities = r.withoutIdentities

omit [HashFunction] in
theorem findUnit_map_contents (r : CompilationRequest) (j : UInt32) :
    r.withoutIdentities.findUnit j = r.contentsOf j := by
  show List.find? (·.index == j) (r.units.map (·.contents)) = _
  rw [List.find?_map]
  rfl

namespace Laid

variable {r r' : CompilationRequest} {units units' : List CompilationUnitSpec} (h : Laid r units)
  (h' : Laid r' units')

include h

include h'

theorem contentsAt_eq (same : r'.header = r.header) {j : UInt32}
    (agree : r'.contentsOf j = r.contentsOf j) :
    contentsAt units j.toNat = contentsAt units' j.toNat := by
  rw [contentsAt, contentsAt]
  cases hfind : r.findUnit j with
  | none =>
    have hfind' : r'.findUnit j = none := by
      simpa [CompilationRequest.contentsOf, hfind] using agree
    rw [h.getElem?_of_none hfind, h'.getElem?_of_none hfind']
  | some unit =>
    obtain ⟨unit', hfind', hcontents⟩ : ∃ unit', r'.findUnit j = some unit' ∧
        unit'.contents = unit.contents := by
      simpa [CompilationRequest.contentsOf, hfind] using agree
    obtain ⟨a, ha, hget⟩ := h.getElem?_of_findUnit hfind
    obtain ⟨b, hb, hget'⟩ := h'.getElem?_of_findUnit hfind'
    rw [hget, hget', Option.map_some, Option.map_some, contents_eq_of_canonicalized ha hb
      (congrArg (·.policy.flagOrderSignificant) same :) hcontents.symm]

omit h' in
/-- What holds at every index and past the last one holds at every position. -/
theorem forall_positions {P : Nat → Prop} (hlen : units'.length = units.length)
    (index : ∀ j : UInt32, P j.toNat)
    (past : ∀ i, units[i]? = none → units'[i]? = none → P i) (i : Nat) : P i := by
  rcases lt_or_ge i units.length with hi | hi
  · rw [← h.dense i hi]
    exact index _
  · exact past i (List.getElem?_eq_none hi) (List.getElem?_eq_none (hlen ▸ hi))

end Laid

omit [HashFunction] in
theorem Identified.contentsOf_eq [HashFunction] {c : CompilationRequest}
    {before : List CompilationUnitSpec} (h : Identified c before c.units) (hd : Dense before)
    (p : UInt32) : c.contentsOf p = contentsAt before p.toNat := by
  rw [CompilationRequest.contentsOf, CompilationRequest.findUnit, (h.dense hd).find?, contentsAt]
  rcases lt_or_ge p.toNat before.length with hp | hp
  · rw [h.assigned _ hp, List.getElem?_eq_getElem hp]
    rfl
  · rw [List.getElem?_eq_none hp, List.getElem?_eq_none (h.length_eq ▸ hp)]

/-- A child list sees a change below it and no other: of two accepted requests
that agree on everything except what unit `k` says, a unit above `k` has
different identities exactly when descending child lists lead from it to `k` (or
it is `k`, in a cycle).
Of two that differ in supplied identities at most, the derived identities agree
exactly when the supplied ones of children listed below their own index do. -/
theorem link_identity_iff {r r' c c' : CompilationRequest} (hr : canonicalize r = .ok c)
    (hr' : canonicalize r' = .ok c')
    (injective : CollisionFree r r') :
    (∀ k p, AgreeExcept k r r' → c.contentsOf k ≠ c'.contentsOf k → c.Reaches p k →
        (c.identityOf p ≠ c'.identityOf p ↔ p = k ∨ c.Descends p k)) ∧
      (SayTheSame r r' → ((∀ p, c.identityOf p = c'.identityOf p) ↔
        ∀ p q, c.Lists p q → p < q → r.identityOf q = r'.identityOf q)) := by
  constructor
  · intro k p agree differ reach
    have size : ∀ j, (r'.findUnit j).isSome = (r.findUnit j).isSome := by
      intro j
      by_cases hj : j = k
      · subst hj
        have := congrArg Option.isSome agree.identity
        rwa [CompilationRequest.identityOf, CompilationRequest.identityOf, Option.isSome_map,
          Option.isSome_map] at this
      · rw [agree.others j hj]
    obtain ⟨before, before', hlaid, hlaid', h⟩ :=
      compared_of_canonicalized hr hr' agree.header size injective
    have supplied : ∀ i, digestAt before i = digestAt before' i := by
      refine hlaid.forall_positions h.length_eq (fun j => ?_) fun i hi hi' => ?_
      · rw [hlaid.digestAt_eq, hlaid'.digestAt_eq]
        by_cases hj : j = k
        · rw [hj, agree.identity]
        · rw [CompilationRequest.identityOf, CompilationRequest.identityOf, agree.others j hj]
      · rw [digestAt, digestAt, hi, hi']
    have only : ∀ i, i ≠ k.toNat → contentsAt before i = contentsAt before' i := by
      refine hlaid.forall_positions h.length_eq (fun j hj => ?_) fun i hi hi' _ => ?_
      · refine hlaid.contentsAt_eq hlaid' agree.header ?_
        rw [CompilationRequest.contentsOf, CompilationRequest.contentsOf,
          agree.others j fun heq => hj (congrArg _ heq)]
      · rw [contentsAt, contentsAt, hi, hi']
    rw [h.identified.contentsOf_eq h.dense, h.identified'.contentsOf_eq h.dense'] at differ
    obtain ⟨q, hfirst, hrest⟩ := Relation.TransGen.head'_iff.mp reach
    exact h.identity_differs_iff only differ supplied (h.lt_of_lists hfirst)
  · intro same
    have header : r'.header = r.header := congrArg (fun q => { q with units := [] }) same
    have agree : ∀ j, r'.contentsOf j = r.contentsOf j := fun j => by
      rw [← findUnit_map_contents, ← findUnit_map_contents, same]
    have size : ∀ j, (r'.findUnit j).isSome = (r.findUnit j).isSome := by
      intro j
      have := congrArg Option.isSome (agree j)
      rwa [CompilationRequest.contentsOf, CompilationRequest.contentsOf, Option.isSome_map,
        Option.isSome_map] at this
    obtain ⟨before, before', hlaid, hlaid', h⟩ :=
      compared_of_canonicalized hr hr' header size injective
    have contents : ∀ i, contentsAt before i = contentsAt before' i := by
      refine hlaid.forall_positions h.length_eq (fun j => ?_) fun i hi hi' => ?_
      · exact hlaid.contentsAt_eq hlaid' header (agree j)
      · rw [contentsAt, contentsAt, hi, hi']
    rw [h.identities_eq_iff contents]
    refine forall₂_congr fun p q => forall_congr' fun hlists => ?_
    have hp := h.lt_of_lists hlists
    have hne : q ≠ p := fun heq =>
      (h.children _ hp q ((h.lists_iff hp).mp hlists)).2 (congrArg _ heq)
    rw [hlaid.digestAt_eq, hlaid'.digestAt_eq]
    refine imp_congr ?_ Iff.rfl
    rw [UInt32.lt_iff_toNat_lt, UInt32.lt_iff_toNat_lt]
    have hne' : q.toNat ≠ p.toNat := fun heq => hne (UInt32.toNat_inj.mp heq)
    omega

end

-- ---------------------------------------------------------------------------
-- A link before and after its object
-- ---------------------------------------------------------------------------

/-- A link unit over one object. -/
def linkRequest (link object : UInt32) (content : Digest256) : CompilationRequest where
  requestId := ⟨1⟩
  toolchain := { family := .gnu, versionString := txt "13" }
  target := { os := .linux, arch := .x86_64 }
  units := [
    { index := link, logicalName := txt "app", kind := .link, childUnits := [object] },
    { index := object, logicalName := txt "a", sources := [
        { logicalName := txt "a.cpp", content := { digest := content, size := 1 } }] }]

theorem agreeExcept_linkRequest {link object : UInt32} (h : link ≠ object)
    (content content' : Digest256) :
    AgreeExcept object (linkRequest link object content) (linkRequest link object content') where
  header := rfl
  others j hj := by
    simp only [CompilationRequest.findUnit, linkRequest, List.find?_cons,
      beq_eq_false_iff_ne.mpr hj.symm, List.find?_nil]
  identity := by
    simp only [CompilationRequest.identityOf, CompilationRequest.findUnit, linkRequest,
      List.find?_cons, beq_eq_false_iff_ne.mpr h, beq_self_eq_true, Option.map_some]

/-- Both requests are accepted without a collision, say different things about
unit `k`, which unit `p` lists; `same` tells whether `p` has one identity. -/
def comparesLinks (r r' : CompilationRequest) (p k : UInt32) (same : Bool) : Bool :=
  match canonicalize r, canonicalize r' with
  | .ok c, .ok c' =>
    ((hashedUnits r ++ hashedUnits r').dedup.map sha256).Nodup &&
      c.contentsOf k != c'.contentsOf k &&
      (c.findUnit p).any (k ∈ ·.childUnits) &&
      (c.identityOf p == c'.identityOf p) == same
  | _, _ => false

theorem comparesLinks_elim {r r' : CompilationRequest} {p k : UInt32} {same : Bool}
    (h : comparesLinks r r' p k same = true) :
    ∃ c c', canonicalize r = .ok c ∧ canonicalize r' = .ok c' ∧ CollisionFree r r' ∧
      c.contentsOf k ≠ c'.contentsOf k ∧ c.Lists p k ∧
      (c.identityOf p = c'.identityOf p ↔ same = true) := by
  rw [comparesLinks] at h
  split at h
  · next c c' hr hr' =>
    simp only [Bool.and_eq_true, decide_eq_true_eq, bne_iff_ne, ne_eq, beq_iff_eq,
      Option.any_eq_true] at h
    obtain ⟨⟨⟨hnodup, hdiffer⟩, unit, hfind, hchild⟩, hsame⟩ := h
    refine ⟨c, c', hr, hr', ?_, hdiffer, ⟨unit, hfind, hchild⟩, ?_⟩
    · intro x hx y hy heq
      exact List.inj_on_of_nodup_map hnodup (List.mem_dedup.mpr hx) (List.mem_dedup.mpr hy) heq
    · rw [← hsame, beq_iff_eq]
  · cases h

set_option maxRecDepth 100000 in
/-- The characterization for a link that follows its object. -/
theorem link_identity_iff_after : ∃ c c',
    canonicalize (linkRequest 1 0 (.filled 1)) = .ok c ∧
    canonicalize (linkRequest 1 0 (.filled 2)) = .ok c' ∧
    (c.identityOf 1 ≠ c'.identityOf 1 ↔ (1 : UInt32) = 0 ∨ c.Descends 1 0) := by
  obtain ⟨c, c', hr, hr', hfree, hdiffer, hlists, -⟩ :=
    comparesLinks_elim
      (show comparesLinks (linkRequest 1 0 (.filled 1)) (linkRequest 1 0 (.filled 2)) 1 0 false = true by
        rw [comparesLinks, hashFunction_eq]
        decide +kernel)
  exact ⟨c, c', hr, hr', (link_identity_iff hr hr' hfree).1 0 1
    (agreeExcept_linkRequest (by decide) _ _) hdiffer (.single hlists)⟩

set_option maxRecDepth 100000 in
/-- A link that precedes its object has the same identity over different
objects. -/
theorem not_link_identity_before : ¬∀ r r' c c' : CompilationRequest,
    canonicalize r = .ok c → canonicalize r' = .ok c' → CollisionFree r r' →
    ∀ k p, AgreeExcept k r r' → c.contentsOf k ≠ c'.contentsOf k → c.Reaches p k →
      c.identityOf p ≠ c'.identityOf p := by
  intro h
  obtain ⟨c, c', hr, hr', hfree, hdiffer, hlists, hsame⟩ :=
    comparesLinks_elim
      (show comparesLinks (linkRequest 0 1 (.filled 1)) (linkRequest 0 1 (.filled 2)) 0 1 true = true by
        rw [comparesLinks, hashFunction_eq]
        decide +kernel)
  exact h _ _ c c' hr hr' hfree 1 0 (agreeExcept_linkRequest (by decide) _ _) hdiffer
    (.single hlists) (hsame.mpr rfl)

end DistributedCompilation
