import DistributedCompilation.Codec.Replay
import DistributedCompilation.Safety.Claims

/-!
# Distributed Compilation — units that share a handle

A compilation is kept under 64 bits of its unit identity, and `submit` takes the
record it finds under a handle for that of its unit. The first unit under a
handle therefore keeps it, and each unit has a record of its own exactly where
no other identity was there before it.
-/

namespace DistributedCompilation

open Program (Keeps)

-- ---------------------------------------------------------------------------
-- Claims
-- ---------------------------------------------------------------------------

section Claiming

variable {κ α : Type} [DecidableEq κ]

/-- A value takes its key unless somebody has it. -/
def claimed (key : α → κ) (owner : κ → Option α) (a : α) (k : κ) : Option α :=
  (owner k).or (if key a = k then some a else none)

/-- Values that claim their keys in turn: the first one to come gets it. -/
theorem foldl_claimed (key : α → κ) (xs : List α) (owner : κ → Option α) (k : κ) :
    xs.foldl (claimed key) owner k = (owner k).or (xs.find? (key · = k)) := by
  induction xs generalizing owner with
  | nil => rw [List.foldl_nil, List.find?_nil, Option.or_none]
  | cons x xs ih =>
    rw [List.foldl_cons, ih, claimed, Option.or_assoc, List.find?_cons]
    by_cases hkey : key x = k
    · rw [if_pos hkey, decide_eq_true hkey, Option.some_or]
    · rw [if_neg hkey, decide_eq_false hkey, Option.none_or]

/-- A key that has an owner is claimed in vain. -/
theorem claimed_eq_self {key : α → κ} {owner : κ → Option α} {a b : α} (h : owner (key a) = some b) :
    claimed key owner a = owner := by
  funext k
  rw [claimed]
  by_cases hkey : key a = k
  · rw [← hkey, h, Option.some_or]
  · rw [if_neg hkey, Option.or_none]

end Claiming

section

variable [HashFunction]

-- ---------------------------------------------------------------------------
-- Units by handle
-- ---------------------------------------------------------------------------

/-- The unit whose record is kept under a handle. -/
def State.unitAt (s : State) (id : CompilationId) : Option Digest256 :=
  (s.compilations[id]?).map (·.unitIdentity)

/-- The unit a handle goes to when the request is submitted. -/
def CompilationRequest.claimant (request : CompilationRequest) (s : State) (id : CompilationId) :
    Option Digest256 :=
  (s.unitAt id).or ((request.units.map (·.identityDigest)).find? (deriveCompilationId · = id))

omit [HashFunction] in
theorem State.unitAt_modify (s : State) (key : CompilationId) (f : CompilationRecord → CompilationRecord)
    (h : ∀ record, (f record).unitIdentity = record.unitIdentity) (id : CompilationId) :
    (s.withCompilation key f).unitAt id = s.unitAt id :=
  Table.map_get_modify (fun record _ => h record) id

/-- Under each handle is the record of that unit. -/
def Impl.About (units : CompilationId → Option Digest256) (i : Impl) : Prop :=
  ∀ id, i.state.unitAt id = units id

namespace Impl.About

variable {units : CompilationId → Option Digest256}

instance touched (units : CompilationId → Option Digest256) : Touched (Impl.About units) where
  quiet hi hstate _ id := hstate ▸ hi id
  touch hi h id := by
    refine Eq.trans ?_ (hi id)
    cases h with
    | note notes => rw [State.unitAt, State.unitAt, notes.compilations]
    | @record key f frozen =>
      refine State.unitAt_modify _ key f (fun record => ?_) id
      have hsame := congrArg CompilationRecord.unitIdentity (frozen record)
      exact hsame
    | attempt | worker | lease | revoke | session => rfl

omit [HashFunction] in
theorem resolved {i : Impl} {s' : State} (hi : i.About units) (h : i.state.Aside s') :
    Impl.About units { i with state := s' } := by
  intro id
  rw [← hi id, State.unitAt, State.unitAt, h.compilations]

omit [HashFunction] in
theorem rebuild (id : CompilationId) : Keeps (Impl.About units) (rebuild id) := by
  have superseded : Keeps (Impl.About units) (DistributedCompilation.onState (·.supersede id)) := by
    refine Keeps.update fun i hi key => Eq.trans ?_ (hi key)
    unfold State.supersede
    simp only
    split
    · refine State.unitAt_modify _ _ _ ?_ key
      exact fun _ => rfl
    · refine State.unitAt_modify _ _ _ ?_ key
      exact fun _ => rfl
  have withdrawn : Keeps (Impl.About units) (DistributedCompilation.onState (·.withdraw id)) :=
    Keeps.update fun _ hi => hi
  have reset : Keeps (Impl.About units) (do
      let updatedAt ← now
      onCompilation id (·.reset updatedAt)
      orReturn (persistCompilation id)) :=
    Keeps.bind Still.now fun _ => Keeps.bind (Touched.onCompilation fun _ => rfl) fun _ =>
      Still.orReturn (Noted.persistCompilation id)
  unfold DistributedCompilation.rebuild
  refine Keeps.bind superseded fun _ => Keeps.bind Still.getState fun s => ?_
  grind

end Impl.About

-- ---------------------------------------------------------------------------
-- Submission
-- ---------------------------------------------------------------------------

/-- An admitted unit claims its handle. -/
theorem wp_admitUnit {units : CompilationId → Option Digest256} (forceRebuild : Bool)
    (request : CompilationRequest) (unit : CompilationUnitSpec) {i : Impl} (hi : i.About units) :
    Program.wp (admitUnit forceRebuild request unit)
      (fun _ j => j.About (claimed deriveCompilationId units unit.identityDigest)) i := by
  unfold admitUnit
  rw [Still.wp_getState_bind]
  split
  next fresh =>
    refine Still.wp_now hi fun createdAt j hj same => ?_
    rw [Still.wp_onState_bind]
    refine Noted.persistOrLeave _ _ fun id => ?_
    show ((j.state.compilations.insert (deriveCompilationId unit.identityDigest) _)[id]?).map _ = claimed _ _ _ _
    rw [claimed, ← hj id, State.unitAt, Table.get_insert]
    by_cases hid : deriveCompilationId unit.identityDigest = id
    · rw [if_pos hid, if_pos hid, ← hid, same, fresh]
      rfl
    · rw [if_neg hid, if_neg hid, Option.or_none]
  next existing found =>
    have howned : units (deriveCompilationId unit.identityDigest) = some existing.unitIdentity := by
      rw [← hi, State.unitAt, found, Option.map_some]
    rw [claimed_eq_self howned]
    split
    next => exact Impl.About.rebuild _ i hi
    next =>
    split
    next =>
      intro id
      refine Eq.trans (State.unitAt_modify _ _ _ ?_ id) (hi id)
      exact fun _ => rfl
    next => exact hi

theorem wp_admitUnits {units : CompilationId → Option Digest256} (forceRebuild : Bool)
    (request : CompilationRequest) (specs : List CompilationUnitSpec) {i : Impl} (hi : i.About units) :
    Program.wp (Program.forEach specs (admitUnit forceRebuild request))
      (fun r j => r = .ok () →
        j.About ((specs.map (·.identityDigest)).foldl (claimed deriveCompilationId) units)) i := by
  induction specs generalizing units i with
  | nil => exact fun _ => hi
  | cons spec specs ih =>
    exact Program.wp_seq _ (wp_admitUnit forceRebuild request spec hi) (fun _ j hj => ih hj)
      fun _ _ _ => nofun

/-- A submission that is answered leaves under each handle what claimed it first. -/
theorem wp_submit {bundle : SubmissionBundle} {request : CompilationRequest}
    (canonical : canonicalize bundle.request = .ok request) (i : Impl) :
    Program.wp (submit bundle)
      (fun r j => ∀ result, r = .ok result → j.About (request.claimant i.state)) i := by
  have hi : i.About i.state.unitAt := fun _ => rfl
  unfold submit
  rw [Program.wp_read_bind]
  refine Program.wp_seq _ (Still.orLeave _ i hi) (fun _ j hj => ?_) fun _ _ _ _ => nofun
  refine Still.wp_ensureOpen_bind (fun _ => ?_) fun _ _ => nofun
  have hok : orThrow (Except.ok request) = (pure request : M CompilationRequest) := rfl
  rw [canonical, hok, Program.wp_pure_bind]
  refine Program.wp_seq _ (Keeps.forEach (I := Impl.About i.state.unitAt) _ (fun unit _ => Still.orLeave _) j hj)
    (fun _ k hk => ?_)    fun _ _ _ _ => nofun
  have hregistered : Program.wp (registerAndCheck request) (fun r l => l.About i.state.unitAt ∧
      ∀ registered, r = .ok registered → registered.units = request.units) k := by
    refine Program.wp_and (Still.registerAndCheck Impl.About.resolved request k hk) fun registered h => ?_
    rw [(registered_of_registerAndCheck h).eq]
    rfl
  refine Program.wp_seq _ hregistered (fun registered l hl => ?_) fun _ _ _ _ => nofun
  obtain ⟨hl, hunits⟩ := hl
  have hfinal : registered.units.map (·.identityDigest) = request.units.map (·.identityDigest) := by
    rw [hunits registered rfl]
  unfold submitRegistered
  rw [Still.wp_getState_bind]
  refine Program.wp_seq _ (Still.storeBlobs _ l hl) (fun _ m hm => ?_) fun _ _ _ _ => nofun
  refine Program.wp_seq _ (Noted.retainRequest _ m hm) (fun _ n hn => ?_) fun _ _ _ _ => nofun
  refine Program.wp_seq _ (Noted.openJob _ n hn) (fun job o ho => ?_) fun _ _ _ _ => nofun
  refine Program.wp_seq _ (wp_admitUnits _ _ _ ho) (fun _ p hp => ?_) fun _ _ _ _ => nofun
  have hp : p.About (request.claimant i.state) := by
    intro id
    rw [hp rfl id, hfinal, foldl_claimed]
    rfl
  refine Program.wp_mono ?_ fun _ _ h _ _ => h
  refine Keeps.bind (I := Impl.About (request.claimant i.state)) (Noted.onState fun s => .putJob s _ _)
    (fun _ => ?_) p hp
  refine Keeps.bind (Noted.persistOrLeave _) fun _ => ?_
  refine Keeps.bind (Keeps.collect _ fun unit _ => ?_) fun units => ?_
  · exact Keeps.bind (Touched.answerUnit _ _ _) fun _ => Keeps.pure _
  · refine Keeps.bind (Noted.onState fun s => .putJob s _ _) fun _ => ?_
    exact Keeps.bind (Noted.persistOrLeave _) fun _ => Keeps.pure _

-- ---------------------------------------------------------------------------
-- Runs
-- ---------------------------------------------------------------------------

/-- The canonical request of a submission that is answered. -/
def Step.submitted (step : Step) : Option CompilationRequest :=
  match step.op with
  | .submit bundle =>
    match ((submit bundle).run (System.given step.environment step.before.impl)).1,
        canonicalize bundle.request with
    | .ok _, .ok request => some request
    | _, _ => none
  | _ => none

/-- Each unit of the request has the record under its handle. -/
def State.Owns (s : State) (request : CompilationRequest) : Prop :=
  ∀ unit ∈ request.units, s.unitAt (deriveCompilationId unit.identityDigest) = some unit.identityDigest

/-- No unit of the request comes second to another identity under its handle, be that
one recorded before or in the same request. -/
structure CompilationRequest.Apart (request : CompilationRequest) (s : State) : Prop where
  recorded : ∀ unit ∈ request.units, ∀ record : CompilationRecord,
    s.compilations[deriveCompilationId unit.identityDigest]? = some record →
      record.unitIdentity = unit.identityDigest
  among : ∀ unit ∈ request.units, ∀ other ∈ request.units,
    deriveCompilationId unit.identityDigest = deriveCompilationId other.identityDigest →
      unit.identityDigest = other.identityDigest

/-- The handle of a submitted unit is always claimed. -/
theorem CompilationRequest.claimant_of_mem {request : CompilationRequest} {unit : CompilationUnitSpec}
    (h : unit ∈ request.units) (s : State) :
    ∃ identity, request.claimant s (deriveCompilationId unit.identityDigest) = some identity := by
  unfold claimant
  cases hbefore : s.unitAt (deriveCompilationId unit.identityDigest) with
  | some identity => exact ⟨identity, rfl⟩
  | none =>
    rw [Option.none_or, ← Option.isSome_iff_exists, List.find?_isSome]
    exact ⟨unit.identityDigest, List.mem_map_of_mem h, by simp⟩

/-- The first to claim a handle is the unit itself exactly if nobody else does. -/
theorem CompilationRequest.apart_iff (request : CompilationRequest) (s : State) :
    request.Apart s ↔ ∀ unit ∈ request.units,
      request.claimant s (deriveCompilationId unit.identityDigest) = some unit.identityDigest := by
  constructor
  · intro apart unit hunit
    obtain ⟨identity, hidentity⟩ := claimant_of_mem hunit s
    rw [hidentity, Option.some.injEq]
    unfold claimant at hidentity
    rcases Option.or_eq_some_iff.mp hidentity with hbefore | ⟨-, hfound⟩
    · obtain ⟨record, hrecord, rfl⟩ := Option.map_eq_some_iff.mp hbefore
      exact apart.recorded unit hunit record hrecord
    · obtain ⟨other, hother, rfl⟩ := List.mem_map.mp (List.mem_of_find?_eq_some hfound)
      have hsame := List.find?_some hfound
      exact apart.among other hother unit hunit (of_decide_eq_true hsame)
  · intro owned
    refine ⟨fun unit hunit record hrecord => ?_, fun unit hunit other hother hsame => ?_⟩
    · have hclaim := owned unit hunit
      rw [claimant, State.unitAt, hrecord, Option.map_some, Option.some_or] at hclaim
      exact Option.some.inj hclaim
    · have hclaim := owned unit hunit
      rw [hsame, owned other hother] at hclaim
      exact (Option.some.inj hclaim).symm

instance State.unitAt_lasting (id : CompilationId) (identity : Digest256) :
    Lasting fun i => i.state.unitAt id = some identity := by
  have advances {s s' : State} (h : s.Advances s') (hs : s.unitAt id = some identity) :
      s'.unitAt id = some identity := by
    obtain ⟨record, hrecord, rfl⟩ := Option.map_eq_some_iff.mp hs
    obtain ⟨next, hnext, hbound, -⟩ := h id record hrecord
    have hsame := congrArg CompilationRecord.unitIdentity hbound
    rw [State.unitAt, hnext, Option.map_some]
    exact congrArg some hsame
  exact {
    quiet := fun hi hstate _ => hstate ▸ hi
    touch := fun hi h => advances (.of_touch h) hi
    change := fun hi h => advances (.of_change h) hi
    admission := fun hi h => advances (.of_admission h) hi }

/-- What claimed a handle first keeps it to the end of the run. -/
theorem Runs.claimant {first last : System} {steps : List Step} (run : Runs first steps last) :
    ∀ step ∈ steps, ∀ request ∈ step.submitted, ∀ unit ∈ request.units,
      last.impl.state.unitAt (deriveCompilationId unit.identityDigest) =
        request.claimant step.before.impl.state (deriveCompilationId unit.identityDigest) := by
  induction run with
  | start => exact fun _ h => absurd h List.not_mem_nil
  | @step steps sys run environment op within ih =>
    intro step hstep request hrequest unit hunit
    rcases List.mem_append.mp hstep with hbefore | hnow
    · obtain ⟨identity, hidentity⟩ := request.claimant_of_mem hunit step.before.impl.state
      have hheld := ih step hbefore request hrequest unit hunit
      rw [hidentity] at hheld ⊢
      exact Lasting.step (I := fun i => i.state.unitAt _ = some identity) hheld environment op within
    · obtain rfl := List.mem_singleton.mp hnow
      unfold Step.submitted at hrequest
      cases op with
      | submit bundle =>
        simp only at hrequest
        split at hrequest
        next result canonical hanswered hcanonical =>
          obtain rfl := Option.some.inj hrequest
          exact wp_submit hcanonical (System.given environment sys.impl) result hanswered _
        next => cases hrequest
      | _ => cases hrequest

end

/-- SHA-256 with its first eight bytes replaced: as far from collisions as its last 192
bits are, and the handles only see the eight bytes that are all the same. -/
@[reducible] def crowdedHash : HashFunction where
  sha256 data := ⟨1 :: List.replicate 7 0 ++ (sha256 data).bytes.drop 8, by
    rw [List.length_append, List.length_drop, (sha256 data).size_eq]
    rfl⟩

/-- Two units over two sources. -/
def crowdedBundle : SubmissionBundle where
  request := {
    requestId := ⟨1⟩
    toolchain := { family := .gnu, versionString := txt "13" }
    target := { os := .linux, arch := .x86_64 }
    policy := { requireProvableToolchain := false }
    units := [
      { logicalName := txt "a", sources := [
        { logicalName := txt "a.cpp", content := { digest := crowdedHash.sha256 (txt "x"), size := 1 } }] },
      { index := 1, logicalName := txt "b", sources := [
        { logicalName := txt "a.cpp", content := { digest := crowdedHash.sha256 (txt "x"), size := 1 } }] }] }
  blobs := [{ bytes := txt "x" }]

def crowdedFirst : System :=
  @System.step crowdedHash {} (.openWith { enablePersistence := false }) { impl := { store := {} } }

def crowdedStep : Step := ⟨{}, .submit crowdedBundle, crowdedFirst⟩

def crowdedLast : System := @System.perform crowdedHash [.submit crowdedBundle] crowdedFirst

/-- The submission is answered, and one of its units is under the record of the other. -/
theorem crowded_checks : ((@Step.submitted crowdedHash crowdedStep).any fun request =>
    request.units.any fun unit => decide (crowdedLast.impl.state.unitAt
      (@deriveCompilationId crowdedHash unit.identityDigest) ≠ some unit.identityDigest)) = true := by
  decide +kernel

theorem crowdedFirst_opens :
    @Store.Opens crowdedHash {} { enablePersistence := false } crowdedFirst :=
  ⟨{}, rfl, eq_ok_of_isOk (by decide +kernel)⟩

end DistributedCompilation
