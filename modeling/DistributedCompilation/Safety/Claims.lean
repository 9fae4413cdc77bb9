import DistributedCompilation.Base.Evaluation
import DistributedCompilation.Safety.Lifetime

/-!
# Distributed Compilation — claims stay exact

The entries a claim was assembled from are not rewritten as long as the
generation of the compilation stays, so the claim stays the one its attempt is
checked against; once the generation has moved it is none any more.
-/

namespace DistributedCompilation

open Program (Keeps)

-- ---------------------------------------------------------------------------
-- Claims
-- ---------------------------------------------------------------------------

/-- What a claim is checked against in a compilation record, the generation aside. -/
def CompilationRecord.bound (record : CompilationRecord) : CompilationRecord :=
  { record.frozen with
    generation := {}, unitIndex := 0, attemptOrdinalCounter := 0, attempts := [], currentAttempt := {} }

/-- The expectation only looks at what is bound and at the generation. -/
theorem State.expectationFor_congr {s s' : State} {record record' : CompilationRecord}
    {attempt attempt' : CompilationAttempt} (ages : s.header.Ages s'.header)
    (bound : record'.bound = record.bound) (frozen : attempt'.frozen = attempt.frozen) :
    s'.expectationFor record' attempt' =
      { s.expectationFor record attempt with compilationGeneration := record'.generation } := by
  simp only [CompilationRecord.bound, CompilationRecord.frozen, CompilationRecord.mk.injEq] at bound
  simp only [CompilationAttempt.frozen, CompilationAttempt.mk.injEq] at frozen
  simp only [State.expectationFor, ages.epoch, ages.cacheGeneration, bound, frozen]

/-- The compilation has reached that generation. -/
def State.Reached (s : State) (id : CompilationId) (generation : Nat) : Prop :=
  ∃ record : CompilationRecord, s.compilations[id]? = some record ∧ generation ≤ record.generation.value

/-- The attempt of the claim and its compilation are what the claim says, up to the
generation the compilation is in. -/
structure State.Bound (s : State) (claim : AuthorityClaim) : Prop where
  numbered : claim.attempt.value < s.header.nextAttemptId
  reached : s.Reached claim.compilation claim.compilationGeneration.value
  exact : ∃ (attempt : CompilationAttempt) (record : CompilationRecord),
    s.attempts[claim.attempt]? = some attempt ∧ s.compilations[claim.compilation]? = some record ∧
    attempt.compilation = claim.compilation ∧
    attempt.compilationGeneration = claim.compilationGeneration ∧
    s.expectationFor record attempt = { claim with compilationGeneration := record.generation }

/-- What happens to the entry of a compilation. -/
def State.Advances (s s' : State) : Prop := ∀ (id : CompilationId) (record : CompilationRecord),
  s.compilations[id]? = some record → ∃ next : CompilationRecord, s'.compilations[id]? = some next ∧
    next.bound = record.bound ∧ record.generation.value ≤ next.generation.value

namespace State.Advances

variable {s s' : State}

theorem refl (s : State) : s.Advances s := fun _ record h => ⟨record, h, rfl, Nat.le_refl _⟩

theorem of_compilations (h : s'.compilations = s.compilations) : s.Advances s' :=
  fun _ record hrecord => ⟨record, h ▸ hrecord, rfl, Nat.le_refl _⟩

theorem modify {id : CompilationId} {f : CompilationRecord → CompilationRecord}
    (hf : ∀ record, (f record).bound = record.bound ∧ record.generation.value ≤ (f record).generation.value)
    (h : s'.compilations = s.compilations.modify id f) : s.Advances s' := by
  intro key record hrecord
  rw [h, Table.get_modify]
  split
  next hkey =>
    subst hkey
    exact ⟨f record, by rw [hrecord]; rfl, (hf record).1, (hf record).2⟩
  next => exact ⟨record, hrecord, rfl, Nat.le_refl _⟩

theorem of_frozen {record next : CompilationRecord} (h : next.frozen = record.frozen) :
    next.bound = record.bound ∧ record.generation.value ≤ next.generation.value := by
  refine ⟨by rw [CompilationRecord.bound, CompilationRecord.bound, h], Nat.le_of_eq ?_⟩
  exact (congrArg (fun r : CompilationRecord => r.generation.value) h.symm :)

/-- An assignment only counts in the record. -/
theorem assigned (s : State) (id : CompilationId) (attempt : CompilationAttempt) {lease : CompileLease}
    (updatedAt : UnixMillis) : s.Advances (s.assign id attempt lease updatedAt) :=
  @modify s _ id (·.assigned attempt.id updatedAt) (fun record => ⟨rfl, Nat.le_refl _⟩) rfl

variable [HashFunction]

theorem of_touch (h : Touch s s') : s.Advances s' := by
  cases h with
  | note note => exact of_compilations note.compilations
  | record id frozen => exact modify (fun record => of_frozen (frozen record)) rfl
  | attempt | worker | lease | revoke | session => exact of_compilations rfl

theorem of_change (h : Change s s') : s.Advances s' := by
  cases h with
  | resolve aside => exact of_compilations aside.compilations
  | @create request unit createdAt fresh =>
    intro key record hrecord
    refine ⟨record, ?_, rfl, Nat.le_refl _⟩
    show (s.compilations.insert _ _)[key]? = some record
    rw [Table.get_insert, if_neg]
    · exact hrecord
    · rintro rfl
      change s.compilations[deriveCompilationId unit.identityDigest]? = some record at hrecord
      rw [fresh] at hrecord
      cases hrecord
  | @supersede id =>
    refine @modify s _ id (fun record => { record with generation := record.generation.next })
      (fun record => ⟨rfl, Nat.le_succ _⟩) ?_
    unfold State.supersede
    simp only
    split <;> rfl
  | withdraw | publish => exact of_compilations rfl
  | lower id index =>
    exact @modify s _ id (fun record => { record with unitIndex := index })
      (fun record => ⟨rfl, Nat.le_refl _⟩) rfl
  | assign => exact assigned s _ _ _

theorem of_admission (h : Admission s s') : s.Advances s' := by
  cases h with
  | ready | enroll => exact of_compilations rfl

end State.Advances

/-- Generations are never left. -/
theorem State.Reached.mono {s s' : State} {id : CompilationId} {generation : Nat}
    (h : s.Reached id generation) (advances : s.Advances s') : s'.Reached id generation := by
  obtain ⟨record, hrecord, hle⟩ := h
  obtain ⟨next, hnext, -, hgrown⟩ := advances id record hrecord
  exact ⟨next, hnext, hle.trans hgrown⟩

instance State.Reached.lasting [HashFunction] (id : CompilationId) (generation : Nat) :
    Lasting fun i => i.state.Reached id generation where
  quiet hi hstate _ := hstate ▸ hi
  touch hi h := State.Reached.mono hi (.of_touch h)
  change hi h := State.Reached.mono hi (.of_change h)
  admission hi h := State.Reached.mono hi (.of_admission h)

namespace State.Bound

variable {s s' : State} {claim : AuthorityClaim}

theorem mono (h : s.Bound claim) (ages : s.header.Ages s'.header) (advances : s.Advances s')
    (attempts : ∀ attempt : CompilationAttempt, s.attempts[claim.attempt]? = some attempt →
      ∃ next : CompilationAttempt, s'.attempts[claim.attempt]? = some next ∧ next.frozen = attempt.frozen) :
    s'.Bound claim where
  numbered := Nat.lt_of_lt_of_le h.numbered ages.attempts
  reached := h.reached.mono advances
  exact := by
    obtain ⟨attempt, record, hattempt, hrecord, hcompilation, hgeneration, hexpected⟩ := h.exact
    obtain ⟨attempt', hattempt', hfrozen⟩ := attempts attempt hattempt
    obtain ⟨record', hrecord', hbound, -⟩ := advances _ record hrecord
    refine ⟨attempt', record', hattempt', hrecord', ?_, ?_, ?_⟩
    · rw [← hcompilation]
      exact (congrArg CompilationAttempt.compilation hfrozen :)
    · rw [← hgeneration]
      exact (congrArg CompilationAttempt.compilationGeneration hfrozen :)
    · rw [State.expectationFor_congr ages hbound hfrozen, hexpected]

variable [HashFunction]

theorem of_touch (h : s.Bound claim) (touch : Touch s s') : s'.Bound claim := by
  refine h.mono (.of_touch touch) (.of_touch touch) fun attempt hattempt => ?_
  obtain ⟨next, hnext, hcontinues⟩ := (State.Steady.of_touch touch).attempts _ attempt hattempt
  exact ⟨next, hnext, hcontinues.frozen⟩

/-- Assignments draw fresh numbers. -/
theorem of_change (h : s.Bound claim) (change : Change s s') : s'.Bound claim := by
  refine h.mono (.of_change change) (.of_change change) fun attempt hattempt => ⟨attempt, ?_, rfl⟩
  exact change.keeps_attempt h.numbered hattempt

theorem of_admission (h : s.Bound claim) (admission : Admission s s') : s'.Bound claim := by
  refine h.mono (.of_admission admission) (.of_admission admission) fun attempt hattempt => ⟨attempt, ?_, rfl⟩
  rw [admission.attempts]
  exact hattempt

instance lasting (claim : AuthorityClaim) : Lasting fun i => i.state.Bound claim where
  quiet hi hstate _ := hstate ▸ hi
  touch hi h := State.Bound.of_touch hi h
  change hi h := State.Bound.of_change hi h
  admission hi h := State.Bound.of_admission hi h

end State.Bound

-- ---------------------------------------------------------------------------
-- Attempts of a lifetime
-- ---------------------------------------------------------------------------

section

variable [HashFunction]

/-- An attempt enters the tables with the claim of its assignment. -/
theorem State.Bound.assigned {s : State} (keyed : s.Keyed) {id : CompilationId}
    {compilation : CompilationRecord} (found : s.compilations[id]? = some compilation)
    (worker : WorkerRecord) (speculative : Bool) (createdAt issuedAt updatedAt : UnixMillis) :
    (s.assign id (s.attemptFor worker compilation speculative createdAt)
      ((s.attemptFor worker compilation speculative createdAt).leaseOf issuedAt) updatedAt).Bound
        (s.expectationFor compilation (s.attemptFor worker compilation speculative createdAt)) where
  numbered := Nat.lt_succ_self _
  reached := by
    refine State.Reached.mono ⟨compilation, ?_, Nat.le_refl _⟩ (State.Advances.assigned s id _ updatedAt)
    show s.compilations[compilation.id]? = some compilation
    rw [keyed.compilation id compilation found, found]
  exact := by
    refine ⟨s.attemptFor worker compilation speculative createdAt,
      compilation.assigned (s.attemptFor worker compilation speculative createdAt).id updatedAt,
      ?_, ?_, rfl, rfl, State.expectationFor_congr ⟨rfl, rfl, Nat.le_succ _⟩ rfl rfl⟩
    · show (s.attempts.insert _ _)[(⟨s.header.nextAttemptId⟩ : CompilationAttemptId)]? = _
      exact (Table.get_insert _ _ _ _).trans (if_pos rfl)
    · show (s.compilations.modify id _)[compilation.id]? = _
      rw [keyed.compilation id compilation found, Table.get_modify, if_pos rfl, found]
      rfl

theorem State.Bound.of_issued {s last : State} (keyed : s.Keyed) {assignment : Assignment}
    (h : Tracked.Issued s assignment last) : last.Bound assignment.claim := by
  obtain ⟨id, compilation, worker, speculative, createdAt, issuedAt, updatedAt, hfound, -, -, hclaim,
    hnotes⟩ := h
  rw [hclaim]
  exact (State.Bound.assigned keyed hfound worker speculative createdAt issuedAt updatedAt).of_touch (.note hnotes)

/-- Every attempt numbered from there on has its claim. -/
def State.Accounts (base : Nat) (s : State) : Prop := ∀ key : CompilationAttemptId,
  base ≤ key.value → key.value < s.header.nextAttemptId → ∃ claim, claim.attempt = key ∧ s.Bound claim

instance State.Accounts.lasting (base : Nat) : Lasting fun i => i.state.Keyed ∧ i.state.Accounts base where
  quiet hi hstate _ := hstate ▸ hi
  touch {i s'} hi h := by
    refine ⟨hi.1.of_touch h, fun key hbase hkey => ?_⟩
    change key.value < s'.header.nextAttemptId at hkey
    have hcounter : s'.header.nextAttemptId = i.state.header.nextAttemptId :=
      (congrArg StateHeader.nextAttemptId (State.Steady.of_touch h).stable :)
    obtain ⟨claim, hclaim, hbound⟩ := hi.2 key hbase (by omega)
    exact ⟨claim, hclaim, hbound.of_touch h⟩
  change {i s'} hi h := by
    refine ⟨hi.1.of_change h, fun key hbase hkey => ?_⟩
    change key.value < s'.header.nextAttemptId at hkey
    by_cases hold : key.value < i.state.header.nextAttemptId
    · obtain ⟨claim, hclaim, hbound⟩ := hi.2 key hbase hold
      exact ⟨claim, hclaim, hbound.of_change h⟩
    · -- only an assignment draws a number
      cases h with
      | resolve aside =>
        have hcounter : s'.header.nextAttemptId = i.state.header.nextAttemptId :=
          (congrArg StateHeader.nextAttemptId aside.stable :)
        omega
      | @supersede id =>
        rw [StateHeader.Ages.supersede] at hkey
        exact absurd hkey hold
      | @assign id compilation worker speculative createdAt issuedAt updatedAt found able =>
        refine ⟨_, ?_, State.Bound.assigned hi.1 found worker speculative createdAt issuedAt updatedAt⟩
        change key.value < i.state.header.nextAttemptId + 1 at hkey
        have hvalue : i.state.header.nextAttemptId = key.value := by omega
        show (⟨i.state.header.nextAttemptId⟩ : CompilationAttemptId) = key
        rw [hvalue]
      | create | withdraw | lower | publish => exact absurd hkey hold
  admission {i s'} hi h := by
    refine ⟨hi.1.of_admission h, fun key hbase hkey => ?_⟩
    change key.value < s'.header.nextAttemptId at hkey
    have hcounter : s'.header.nextAttemptId = i.state.header.nextAttemptId := by
      cases h with
      | ready | enroll => rfl
    obtain ⟨claim, hclaim, hbound⟩ := hi.2 key hbase (by omega)
    exact ⟨claim, hclaim, hbound.of_admission h⟩

omit [HashFunction] in
/-- The tables tell what the claim of an attempt is. -/
theorem State.Bound.unique {s : State} {claim claim' : AuthorityClaim} (h : s.Bound claim)
    (h' : s.Bound claim') (same : claim'.attempt = claim.attempt) : claim' = claim := by
  obtain ⟨attempt, record, hattempt, hrecord, hcompilation, hgeneration, hexpected⟩ := h.exact
  obtain ⟨attempt', record', hattempt', hrecord', hcompilation', hgeneration', hexpected'⟩ := h'.exact
  rw [same, hattempt] at hattempt'
  obtain rfl := Option.some.inj hattempt'
  have hid : claim'.compilation = claim.compilation := hcompilation'.symm.trans hcompilation
  rw [hid, hrecord] at hrecord'
  obtain rfl := Option.some.inj hrecord'
  have hfields := hexpected'.symm.trans hexpected
  have hgenerations : claim'.compilationGeneration = claim.compilationGeneration :=
    hgeneration'.symm.trans hgeneration
  cases claim
  cases claim'
  simp only [AuthorityClaim.mk.injEq] at hfields hgenerations ⊢
  exact ⟨hfields.1, hfields.2.1, hgenerations, hfields.2.2.2⟩

/-- As long as the generation stays, the claim is the one that is accepted. -/
theorem State.Bound.accepts {s : State} {claim : AuthorityClaim} (h : s.Bound claim) :
    ∃ (attempt : CompilationAttempt) (record : CompilationRecord),
      s.attempts[claim.attempt]? = some attempt ∧ s.compilations[attempt.compilation]? = some record ∧
      attempt.compilation = claim.compilation ∧
      ∀ other : AuthorityClaim, validateAuthority other (s.expectationFor record attempt) = .ok () ↔
        other = { claim with compilationGeneration := record.generation } := by
  obtain ⟨attempt, record, hattempt, hrecord, hcompilation, -, hexpected⟩ := h.exact
  refine ⟨attempt, record, hattempt, hcompilation ▸ hrecord, hcompilation, fun other => ?_⟩
  rw [validateAuthority_eq_ok, hexpected]

/-- Every attempt issued in a lifetime has one claim. All assignments handed out for
the attempt carry it; as long as the generation of the compilation is that of the
claim, exactly this claim is accepted for the attempt, and once the generation has
moved no claim handed out for it ever is again. -/
theorem claim_exact {store : Store} {config : CoordinatorConfig} {first sys : System} {steps : List Step}
    (opened : store.Opens config first) (run : Runs first steps sys) {key : CompilationAttemptId}
    (issued : first.impl.state.header.nextAttemptId ≤ key.value ∧
      key.value < sys.impl.state.header.nextAttemptId) :
    ∃ claim : AuthorityClaim, claim.attempt = key ∧
      ∀ (later : List Step) (last : System), Runs sys later last →
        (∀ assignment ∈ (steps ++ later).flatMap Step.assignments,
          assignment.claim.attempt = key → assignment.claim = claim) ∧
        ∃ (attempt : CompilationAttempt) (record : CompilationRecord),
          last.impl.state.attempts[key]? = some attempt ∧
          last.impl.state.compilations[attempt.compilation]? = some record ∧
          attempt.compilation = claim.compilation ∧
          (record.generation = claim.compilationGeneration → ∀ other : AuthorityClaim,
            validateAuthority other (last.impl.state.expectationFor record attempt) = .ok () ↔ other = claim) ∧
          (record.generation ≠ claim.compilationGeneration →
            ∀ (more : List Step) (final : System), Runs last more final →
              ∀ (attempt : CompilationAttempt) (record : CompilationRecord),
                final.impl.state.attempts[key]? = some attempt →
                final.impl.state.compilations[attempt.compilation]? = some record →
                validateAuthority claim (final.impl.state.expectationFor record attempt) ≠ .ok ()) := by
  obtain ⟨recovered, hbooted, hreopens, -⟩ := opened.opening.recovered
  have hkeyed := hreopens.keyed hbooted.toKeyed
  have hstart : first.impl.state.Accounts first.impl.state.header.nextAttemptId :=
    fun key hbase hkey => absurd hkey (Nat.not_lt.mpr hbase)
  obtain ⟨claim, rfl, hbound⟩ := (run.lasts (I := fun i => i.state.Keyed ∧
    i.state.Accounts first.impl.state.header.nextAttemptId) ⟨hkeyed, hstart⟩).2 key issued.1 issued.2
  refine ⟨claim, rfl, fun later last next => ⟨fun assignment hassignment hsame => ?_, ?_⟩⟩
  · have hall := (run.trans next).assignments (I := fun i => i.state.Keyed)
      (P := fun assignment i => i.state.Bound assignment.claim)
      (fun hi _ hissued => State.Bound.of_issued hi hissued) hkeyed assignment hassignment
    exact (next.lasts (I := fun i => i.state.Bound claim) hbound).unique hall hsame
  · have hlast := next.lasts (I := fun i => i.state.Bound claim) hbound
    obtain ⟨attempt, record, hattempt, hrecord, hcompilation, haccepts⟩ := hlast.accepts
    refine ⟨attempt, record, hattempt, hrecord, hcompilation, fun hgeneration other => ?_,
      fun hmoved more final rest attempt' record' hattempt' hrecord' haccepted => ?_⟩
    · rw [haccepts, hgeneration]
    · -- the generation lies behind from here on
      obtain ⟨reached, hreached, hle⟩ := hlast.reached
      rw [← hcompilation, hrecord] at hreached
      obtain rfl := Option.some.inj hreached
      have hbeyond : last.impl.state.Reached claim.compilation (claim.compilationGeneration.value + 1) := by
        refine ⟨record, hcompilation ▸ hrecord, ?_⟩
        have hne : record.generation.value ≠ claim.compilationGeneration.value :=
          fun h => hmoved (congrArg Gen.mk h)
        omega
      obtain ⟨after, hafter, hlater⟩ := rest.lasts
        (I := fun i => i.state.Reached claim.compilation (claim.compilationGeneration.value + 1)) hbeyond
      have hend := rest.lasts (I := fun i => i.state.Bound claim) hlast
      obtain ⟨attempt'', record'', hattempt'', hrecord'', hcompilation'', haccepts''⟩ := hend.accepts
      obtain rfl := Option.some.inj (hattempt'.symm.trans hattempt'')
      obtain rfl := Option.some.inj (hrecord'.symm.trans hrecord'')
      have hsame := congrArg (fun c : AuthorityClaim => c.compilationGeneration.value)
        ((haccepts'' claim).mp haccepted)
      rw [hcompilation'', hafter] at hrecord'
      obtain rfl := Option.some.inj hrecord'
      simp only at hsame
      omega

end

/-- A request of one compile unit with its source, which any toolchain may serve. -/
def smallBundle : SubmissionBundle where
  request := {
    requestId := ⟨1⟩
    toolchain := { family := .gnu, versionString := txt "13" }
    target := { os := .linux, arch := .x86_64 }
    policy := { requireProvableToolchain := false }
    units := [{ logicalName := txt "a", sources := [
      { logicalName := txt "a.cpp", content := { digest := sha256 (txt "x"), size := 1 } }] }] }
  blobs := [{ bytes := txt "x" }]

/-- A worker that serves it. -/
def smallWorker : WorkerRegistration where
  workerId := ⟨1⟩
  bootId := ⟨1⟩
  capabilities := {
    evidence := .real
    toolchains := [{ family := .gnu, versionString := txt "13" }]
    targets := [{ os := .linux, arch := .x86_64 }]
    inputFormats := [.source] }

/-- A coordinator without a state directory. -/
def volatileFirst : System := System.step {} (.openWith { enablePersistence := false }) { impl := { store := {} } }

theorem volatileFirst_opens : Store.Opens {} { enablePersistence := false } volatileFirst :=
  ⟨{}, rfl, eq_ok_of_isOk (by decide +kernel)⟩

/-- The unit is submitted and assigned to the worker. -/
def smallRun : List Op := [.submit smallBundle, .registerWorker smallWorker, .markReady ⟨1⟩, .pump]

set_option maxRecDepth 100000 in
theorem smallRun_issues : volatileFirst.impl.state.header.nextAttemptId ≤ 1 ∧
    1 < (System.perform smallRun volatileFirst).impl.state.header.nextAttemptId := by
  rw [smallRun, smallBundle, volatileFirst, hashFunction_eq]
  decide +kernel

theorem claim_exact_small : ∃ (claim : AuthorityClaim) (attempt : CompilationAttempt)
    (record : CompilationRecord),
    (System.perform smallRun volatileFirst).impl.state.attempts[claim.attempt]? = some attempt ∧
    (System.perform smallRun volatileFirst).impl.state.compilations[attempt.compilation]? = some record ∧
    (record.generation = claim.compilationGeneration → ∀ other : AuthorityClaim,
      validateAuthority other ((System.perform smallRun volatileFirst).impl.state.expectationFor record
        attempt) = .ok () ↔ other = claim) := by
  obtain ⟨claim, hkey, hall⟩ := @claim_exact _ _ _ _ _ _ volatileFirst_opens
    (Runs.perform smallRun volatileFirst rfl) ⟨1⟩ smallRun_issues
  obtain ⟨-, attempt, record, hattempt, hrecord, -, hexact, -⟩ := hall [] _ .start
  exact ⟨claim, attempt, record, hkey ▸ hattempt, hrecord, hexact⟩

end DistributedCompilation
