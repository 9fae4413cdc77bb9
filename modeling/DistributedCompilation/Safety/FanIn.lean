import DistributedCompilation.Lib.Barrier
import DistributedCompilation.Safety.Gate

/-!
# Distributed Compilation — fan-in

`canonicalize` looks at single edges of the child lists. Whether the gates of the
link units open one after the other depends on their paths (`gates_open_iff`).
-/

namespace DistributedCompilation

-- ---------------------------------------------------------------------------
-- A request in the tables
-- ---------------------------------------------------------------------------

/-- The compilation of the unit at that index of the job is committed or served from
the cache. -/
def State.unitAvailable (s : State) (job : JobRecord) (p : UInt32) : Bool :=
  match job.units[p.toNat]? with
  | none => false
  | some id => (s.compilations[id]?).any (·.state.available)

/-- The units of the request stand in the job, and every link unit has a compilation
that is resolved to a link unit over the same compilations, in this job or in
another. -/
structure State.Presents (s : State) (c : CompilationRequest) (job : JobRecord) : Prop where
  known : ∀ (p : UInt32) (unit : CompilationUnitSpec), c.findUnit p = some unit →
    ∃ (id : CompilationId) (record : CompilationRecord), job.units[p.toNat]? = some id ∧
      s.compilations[id]? = some record
  gates : ∀ (p : UInt32) (unit : CompilationUnitSpec) (id : CompilationId) (record : CompilationRecord),
    c.findUnit p = some unit → unit.kind = .link → job.units[p.toNat]? = some id →
    s.compilations[id]? = some record →
      ∃ (request : CompilationRequest) (own : CompilationUnitSpec) (other : JobRecord),
        s.resolve record = some (request, own) ∧ own.kind = .link ∧
        s.jobs[record.requestIdentity]? = some other ∧
        (∀ child ∈ own.childUnits, ∃ q ∈ unit.childUnits, other.units[child.toNat]? = job.units[q.toNat]?) ∧
        (∀ q ∈ unit.childUnits, ∃ child ∈ own.childUnits, other.units[child.toNat]? = job.units[q.toNat]?)

namespace State.Presents

variable {s : State} {c : CompilationRequest} {job : JobRecord} (h : s.Presents c job)

include h

/-- The gate of a link unit looks at the compilations of its children. -/
theorem unitReady_iff {p : UInt32} {unit : CompilationUnitSpec} {id : CompilationId}
    {record : CompilationRecord} (found : c.findUnit p = some unit) (link : unit.kind = .link)
    (stands : job.units[p.toNat]? = some id) (stored : s.compilations[id]? = some record) :
    s.unitReady record = true ↔ ∀ q ∈ unit.childUnits, s.unitAvailable job q = true := by
  obtain ⟨request, own, other, resolved, ownLink, hother, covers, covered⟩ :=
    h.gates p unit id record found link stands stored
  have hready : s.unitReady record = true ↔ ∀ child ∈ own.childUnits, s.unitAvailable other child = true := by
    unfold State.unitReady State.unitAvailable
    simp only [resolved, ownLink, hother]
    exact List.all_eq_true
  have same {child q : UInt32} (heq : other.units[child.toNat]? = job.units[q.toNat]?) :
      s.unitAvailable other child = s.unitAvailable job q := by
    unfold State.unitAvailable
    rw [heq]
  rw [hready]
  constructor
  · intro hall q hq
    obtain ⟨child, hchild, heq⟩ := covered q hq
    rw [← same heq]
    exact hall child hchild
  · intro hall child hchild
    obtain ⟨q, hq, heq⟩ := covers child hchild
    rw [same heq]
    exact hall q hq

end State.Presents

-- ---------------------------------------------------------------------------
-- Committing what is ready
-- ---------------------------------------------------------------------------

/-- The compilation becomes committed. -/
def State.commitUnit (s : State) (id : CompilationId) : State :=
  s.withCompilation id fun record => { record with state := .committed }

/-- A link unit of the request that is ready and not yet available is committed. -/
inductive State.CommitsReady (c : CompilationRequest) (job : JobRecord) (s : State) : State → Prop
  | commit (p : UInt32) (unit : CompilationUnitSpec) (id : CompilationId) (record : CompilationRecord)
      (found : c.findUnit p = some unit) (link : unit.kind = .link) (stands : job.units[p.toNat]? = some id)
      (stored : s.compilations[id]? = some record) (waiting : record.state.available = false)
      (ready : s.unitReady record = true) : CommitsReady c job s (s.commitUnit id)

/-- Every link unit of the request is available. -/
def State.Linked (c : CompilationRequest) (job : JobRecord) (s : State) : Prop :=
  ∀ (p : UInt32) (unit : CompilationUnitSpec), c.findUnit p = some unit → unit.kind = .link →
    s.unitAvailable job p = true

/-- In whatever order ready link units are committed, all of them are in the end. -/
inductive State.Settles (c : CompilationRequest) (job : JobRecord) : State → Prop
  | linked {s : State} (h : s.Linked c job) : Settles c job s
  | commits {s : State} (some : ∃ s', s.CommitsReady c job s') (all : ∀ s', s.CommitsReady c job s' → Settles c job s') :
      Settles c job s

@[simp] theorem State.compilations_commitUnit (s : State) (id key : CompilationId) :
    (s.commitUnit id).compilations[key]? = (s.compilations[key]?).map fun record =>
      if key = id then { record with state := .committed } else record := by
  unfold State.commitUnit State.withCompilation
  simp only [Table.get_modify]
  by_cases hkey : key = id
  · simp [hkey]
  · simp [hkey, Ne.symm hkey]

theorem State.unitAvailable_commitUnit {s : State} {job : JobRecord} {p q : UInt32} {id : CompilationId}
    {record : CompilationRecord} (stands : job.units[p.toNat]? = some id)
    (stored : s.compilations[id]? = some record) :
    (s.commitUnit id).unitAvailable job q = (s.unitAvailable job q || job.units[q.toNat]? == some id) := by
  unfold State.unitAvailable
  cases hq : job.units[q.toNat]? with
  | none => simp
  | some key =>
    simp only [State.compilations_commitUnit]
    by_cases hkey : key = id
    · subst hkey
      simp [stored, CompilationState.available]
    · cases s.compilations[key]? with
      | none => simp [hkey]
      | some other => simp [hkey]

theorem State.Presents.commitUnit {s : State} {c : CompilationRequest} {job : JobRecord}
    (h : s.Presents c job) (id : CompilationId) : (s.commitUnit id).Presents c job where
  known p unit found := by
    obtain ⟨key, record, stands, stored⟩ := h.known p unit found
    exact ⟨key, _, stands, by rw [State.compilations_commitUnit, stored, Option.map_some]⟩
  gates p unit key next found link stands hnext := by
    rw [State.compilations_commitUnit, Option.map_eq_some_iff] at hnext
    obtain ⟨record, stored, rfl⟩ := hnext
    obtain ⟨request, own, other, resolved, ownLink, hother, covers, covered⟩ :=
      h.gates p unit key record found link stands stored
    refine ⟨request, own, other, ?_, ownLink, ?_, covers, covered⟩
    · rw [← resolved]
      split <;> rfl
    · rw [← hother]
      split <;> rfl

-- ---------------------------------------------------------------------------
-- Waiting
-- ---------------------------------------------------------------------------

/-- A link unit and a link unit among its children. -/
def CompilationRequest.Links (c : CompilationRequest) (p q : UInt32) : Prop :=
  (∃ unit, c.findUnit p = some unit ∧ unit.kind = .link ∧ q ∈ unit.childUnits) ∧
  ∃ unit, c.findUnit q = some unit ∧ unit.kind = .link

/-- Both are still missing. -/
def State.Waits (c : CompilationRequest) (job : JobRecord) (s : State) (p q : UInt32) : Prop :=
  c.Links p q ∧ s.unitAvailable job p = false ∧ s.unitAvailable job q = false

/-- Every unit that is not a link unit is available. -/
def State.Compiled (c : CompilationRequest) (job : JobRecord) (s : State) : Prop :=
  ∀ (p : UInt32) (unit : CompilationUnitSpec), c.findUnit p = some unit → unit.kind ≠ .link →
    s.unitAvailable job p = true

/-- The children of the units of the request are units of it. -/
def CompilationRequest.Closed (c : CompilationRequest) : Prop :=
  ∀ (p : UInt32) (unit : CompilationUnitSpec), c.findUnit p = some unit → ∀ q ∈ unit.childUnits,
    ∃ unit', c.findUnit q = some unit'

/-- How many units are missing. -/
def State.missing (c : CompilationRequest) (job : JobRecord) (s : State) : Nat :=
  c.units.countP fun unit => !s.unitAvailable job unit.index

theorem countP_lt_countP {α : Type} {P P' : α → Bool} {xs : List α} (le : ∀ x ∈ xs, P' x = true → P x = true)
    (lt : ∃ x ∈ xs, P x = true ∧ P' x = false) : xs.countP P' < xs.countP P := by
  induction xs with
  | nil => simp at lt
  | cons x xs ih =>
    have hle : xs.countP P' ≤ xs.countP P := List.countP_mono_left fun y hy => le y (.tail _ hy)
    have hx := le x (.head _)
    rw [List.countP_cons, List.countP_cons]
    obtain ⟨y, hy, hP, hP'⟩ := lt
    rcases List.mem_cons.mp hy with rfl | hy
    · rw [if_pos hP, if_neg (by simp [hP'])]
      omega
    · have := ih (fun z hz => le z (.tail _ hz)) ⟨y, hy, hP, hP'⟩
      by_cases hPx : P' x = true
      · rw [if_pos hPx, if_pos (hx hPx)]
        omega
      · rw [if_neg hPx]
        omega

namespace State

variable {s s' : State} {c : CompilationRequest} {job : JobRecord}

/-- What one commit does: the request stays, what was available stays, and a unit that
was missing is not. -/
theorem CommitsReady.step (h : s.CommitsReady c job s') (presents : s.Presents c job) :
    s'.Presents c job ∧ (∀ q, s.unitAvailable job q = true → s'.unitAvailable job q = true) ∧
      s'.missing c job < s.missing c job := by
  cases h with
  | commit p unit id record found link stands stored waiting ready =>
  have after (q : UInt32) := State.unitAvailable_commitUnit (q := q) stands stored
  have mono (q : UInt32) (hq : s.unitAvailable job q = true) : (s.commitUnit id).unitAvailable job q = true := by
    rw [after, hq]
    rfl
  refine ⟨presents.commitUnit id, mono, countP_lt_countP (fun other _ hother => ?_) ?_⟩
  · rw [Bool.not_eq_true'] at hother ⊢
    by_contra hne
    rw [mono _ (by simpa using hne)] at hother
    cases hother
  · obtain rfl : unit.index = p := by simpa using List.find?_some found
    refine ⟨unit, List.mem_of_find?_eq_some found, ?_, ?_⟩
    · unfold State.unitAvailable
      simp [stands, stored, waiting]
    · rw [after, stands]
      simp

theorem CommitsReady.compiled (h : s.CommitsReady c job s') (presents : s.Presents c job)
    (compiled : s.Compiled c job) : s'.Compiled c job := fun p unit found hkind =>
  (h.step presents).2.1 p (compiled p unit found hkind)

/-- After a commit no more units wait. -/
theorem CommitsReady.waits (h : s.CommitsReady c job s') (presents : s.Presents c job) {p q : UInt32}
    (waits : s'.Waits c job p q) : s.Waits c job p q := by
  obtain ⟨links, hp, hq⟩ := waits
  have before {u : UInt32} (hu : s'.unitAvailable job u = false) : s.unitAvailable job u = false := by
    by_contra hne
    rw [(h.step presents).2.1 u (by simpa using hne)] at hu
    cases hu
  exact ⟨links, before hp, before hq⟩

/-- Without a cycle something is ready as long as a link unit is missing. -/
theorem exists_commitsReady (presents : s.Presents c job) (closed : c.Closed) (compiled : s.Compiled c job)
    (acyclic : Barrier.Acyclic (s.Waits c job)) (missing : ¬s.Linked c job) : ∃ s', s.CommitsReady c job s' := by
  let present (p : UInt32) : Prop :=
    ∀ unit, c.findUnit p = some unit → unit.kind = .link → s.unitAvailable job p = true
  have hmissing : ∃ p, ¬present p := by
    by_contra hall
    exact missing fun p unit found link => not_not.mp (not_exists.mp hall p) unit found link
  obtain ⟨p, hp, hready⟩ := acyclic.exists_ready hmissing
  obtain ⟨unit, found, link, habsent⟩ : ∃ unit, c.findUnit p = some unit ∧ unit.kind = .link ∧
      s.unitAvailable job p = false := by
    by_contra hne
    exact hp fun unit found link => by
      by_contra habsent
      exact hne ⟨unit, found, link, by simpa using habsent⟩
  obtain ⟨id, record, stands, stored⟩ := presents.known p unit found
  refine ⟨_, .commit p unit id record found link stands stored ?_ ?_⟩
  · unfold State.unitAvailable at habsent
    simpa [stands, stored] using habsent
  · refine (presents.unitReady_iff found link stands stored).mpr fun q hq => ?_
    obtain ⟨child, hchild⟩ := closed p unit found q hq
    by_cases hkind : child.kind = .link
    · by_contra hne
      have hwaits : s.Waits c job p q := ⟨⟨⟨unit, found, link, hq⟩, child, hchild, hkind⟩, habsent, by simpa using hne⟩
      exact hne (hready q hwaits child hchild hkind)
    · exact compiled q child hchild hkind

/-- Without a cycle every order of commits reaches all link units. -/
theorem settles_of_acyclic (presents : s.Presents c job) (closed : c.Closed) (compiled : s.Compiled c job)
    (acyclic : Barrier.Acyclic (s.Waits c job)) : s.Settles c job := by
  -- induction on the number of missing units
  generalize hn : s.missing c job = n
  induction n using Nat.strong_induction_on generalizing s with
  | _ n ih =>
  by_cases hlinked : s.Linked c job
  · exact .linked hlinked
  · refine .commits (exists_commitsReady presents closed compiled acyclic hlinked) fun s' hs' => ?_
    obtain ⟨presents', -, hless⟩ := hs'.step presents
    exact ih _ (hn ▸ hless) presents' (hs'.compiled presents compiled)
      (acyclic.mono fun p q => hs'.waits presents) rfl

/-- What is on a cycle is never committed. -/
theorem CommitsReady.stuck {cycle : UInt32 → Prop} (h : s.CommitsReady c job s') (presents : s.Presents c job)
    (links : ∀ q, cycle q → ∃ r, cycle r ∧ c.Links q r) (missing : ∀ q, cycle q → s.unitAvailable job q = false) :
    ∀ q, cycle q → s'.unitAvailable job q = false := by
  intro q hq
  cases h with
  | commit p unit id record found link stands stored waiting ready =>
  rw [State.unitAvailable_commitUnit stands stored, missing q hq, Bool.false_or]
  by_contra hcommitted
  have hsame : job.units[q.toNat]? = some id := by simpa using hcommitted
  -- the gate of the unit on the cycle is the one that was open
  obtain ⟨r, hr, ⟨unit', found', link', hchild⟩, -⟩ := links q hq
  have hready := (presents.unitReady_iff found' link' hsame stored).mp ready r hchild
  rw [missing r hr] at hready
  cases hready

/-- A cycle of missing units keeps them missing, whatever is committed. -/
theorem Settles.no_cycle {cycle : UInt32 → Prop} (h : s.Settles c job) (presents : s.Presents c job)
    (links : ∀ q, cycle q → ∃ r, cycle r ∧ c.Links q r) (missing : ∀ q, cycle q → s.unitAvailable job q = false)
    {p : UInt32} (hp : cycle p) : False := by
  induction h with
  | linked hlinked =>
    obtain ⟨r, -, ⟨unit, found, link, -⟩, -⟩ := links p hp
    have havailable := hlinked p unit found link
    rw [missing p hp] at havailable
    cases havailable
  | commits some _ ih =>
    obtain ⟨s', hs'⟩ := some
    exact ih s' hs' (hs'.step presents).1 (hs'.stuck presents links missing)

theorem Settles.acyclic (h : s.Settles c job) (presents : s.Presents c job) :
    Barrier.Acyclic (s.Waits c job) := by
  intro p hp
  have hnext (q : UInt32) (hq : Barrier.OnCycle (s.Waits c job) p q) :
      ∃ r, Barrier.OnCycle (s.Waits c job) p r ∧ s.Waits c job q r := Barrier.OnCycle.next hq
  refine h.no_cycle presents (fun q hq => (hnext q hq).imp fun r hr => ⟨hr.1, hr.2.1⟩) (fun q hq => ?_)
    (show Barrier.OnCycle (s.Waits c job) p p from ⟨hp, hp⟩)
  obtain ⟨r, -, -, hmissing, -⟩ := hnext q hq
  exact hmissing

end State

-- ---------------------------------------------------------------------------
-- Accepted requests
-- ---------------------------------------------------------------------------

section

variable [HashFunction]

/-- The children of an accepted request are units of it. -/
theorem closed_of_canonicalize {r c : CompilationRequest} (h : canonicalize r = .ok c) : c.Closed := by
  obtain ⟨before, laid, identified⟩ := ((canonicalize_eq_ok_iff r c).mp h).units
  intro p unit found q hq
  have hdense := identified.dense laid.dense
  rw [CompilationRequest.findUnit, hdense.find?] at found
  obtain ⟨hp, rfl⟩ := List.getElem?_eq_some_iff.mp found
  have hp' : p.toNat < before.length := identified.length_eq ▸ hp
  have hunit := identified.assigned p.toNat hp'
  rw [List.getElem?_eq_getElem hp] at hunit
  have hq' : q ∈ before[p.toNat].childUnits := by
    rw [Option.some.inj hunit] at hq
    exact hq
  have hlt := (laid.child_lt hp' hq').1
  rw [← identified.length_eq] at hlt
  exact ⟨_, by rw [CompilationRequest.findUnit, hdense.find?, List.getElem?_eq_getElem hlt]⟩

end

/-- Two link units over each other. -/
def crossedRequest : CompilationRequest where
  requestId := ⟨1⟩
  toolchain := { family := .gnu, versionString := txt "13" }
  target := { os := .linux, arch := .x86_64 }
  units := [
    { logicalName := txt "a", kind := .link, childUnits := [1] },
    { index := 1, logicalName := txt "b", kind := .link, childUnits := [0] }]

/-- Both units list each other in the canonical request. -/
def CompilationRequest.crosses (r : CompilationRequest) : Bool :=
  match canonicalize r with
  | .error _ => false
  | .ok c => (c.findUnit 0).any (fun unit => unit.kind == .link && unit.childUnits.contains 1) &&
      (c.findUnit 1).any fun unit => unit.kind == .link && unit.childUnits.contains 0

theorem CompilationRequest.of_crosses {r : CompilationRequest} (h : r.crosses = true) :
    ∃ c, canonicalize r = .ok c ∧ c.Links 0 1 ∧ c.Links 1 0 := by
  unfold CompilationRequest.crosses at h
  split at h
  · cases h
  next c hcanonical =>
  simp only [Bool.and_eq_true, Option.any_eq_true, beq_iff_eq, List.contains_iff_mem] at h
  obtain ⟨⟨a, ha, halink, hachild⟩, b, hb, hblink, hbchild⟩ := h
  exact ⟨c, hcanonical, ⟨⟨a, ha, halink, hachild⟩, b, hb, hblink⟩, ⟨b, hb, hblink, hbchild⟩, a, ha, halink⟩

set_option maxRecDepth 100000 in
theorem crossedRequest_crosses : crossedRequest.crosses = true := by
  rw [CompilationRequest.crosses, hashFunction_eq]
  decide +kernel

end DistributedCompilation
