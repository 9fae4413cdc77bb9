import DistributedCompilation.Safety.Vault
import DistributedCompilation.Wire.Messages

/-!
# Distributed Compilation — blobs that can be loaded

`load_blob` serves a cached copy or a file it has verified; `has_blob` asks for a
copy or for the existence of a file. The two agree where the file is intact
(`reusable_loads_iff`).
-/

namespace DistributedCompilation

open Program (Keeps)

section

variable [HashFunction]

-- ---------------------------------------------------------------------------
-- Loading
-- ---------------------------------------------------------------------------

/-- A load of the blob returns these bytes. -/
def Impl.Loads (i : Impl) (digest : Digest256) (bytes : Bytes) : Prop :=
  ((loadBlob digest).run i).1 = .ok (.ok bytes)

/-- The file of the blob holds these bytes, and they are accepted when read. -/
structure Impl.Intact (i : Impl) (digest : Digest256) (bytes : Bytes) : Prop where
  persistent : i.config.enablePersistence = true
  file : i.store.blobs[digest]? = some bytes
  readable : bytes.length ≤ maxSnapshotBytes
  genuine : sha256 bytes = digest
  bounded : bytes.length ≤ i.config.maxBlobBytes

omit [HashFunction] in
theorem run_cacheBlob_ok (digest : Digest256) (bytes : Bytes) (i : Impl) :
    ((do cacheBlob digest bytes; pure (.ok bytes) : M (Result Bytes)).run i).1 = .ok (.ok bytes) := by
  unfold cacheBlob
  split <;> rfl

theorem loads_iff (i : Impl) (digest : Digest256) (bytes : Bytes) :
    i.Loads digest bytes ↔
      i.blobCache[digest]? = some bytes ∨ i.blobCache[digest]? = none ∧ i.Intact digest bytes := by
  unfold Impl.Loads loadBlob
  rw [run_bind_ok (show (Program.read : M Impl).run i = (.ok i, i) from rfl)]
  have returned (r : Result Bytes) : ((pure r : M (Result Bytes)).run i).1 = .ok (.ok bytes) ↔ r = .ok bytes :=
    ⟨fun h => Except.ok.inj h, fun h => congrArg Except.ok h⟩
  cases hcache : i.blobCache[digest]? with
  | some copy =>
    refine (returned _).trans ⟨fun h => .inl (congrArg some (Except.ok.inj h)), fun h => ?_⟩
    rcases h with h | ⟨h, -⟩
    · exact congrArg Except.ok (Option.some.inj h)
    · cases h
  | none =>
    have refused (h : ¬i.Intact digest bytes) (r : Result Bytes) (hr : r ≠ .ok bytes) :
        ((pure r : M (Result Bytes)).run i).1 = .ok (.ok bytes) ↔
          (none : Option Bytes) = some bytes ∨ (none : Option Bytes) = none ∧ i.Intact digest bytes := by
      refine (returned r).trans ⟨fun h' => absurd h' hr, fun h' => ?_⟩
      rcases h' with h' | ⟨-, h'⟩
      · cases h'
      · exact absurd h' h
    dsimp only
    split
    · next hpersistent =>
      cases hfile : i.store.blobs[digest]? with
      | none =>
        exact refused (fun h => by rw [h.file] at hfile; cases hfile) _ nofun
      | some content =>
        have hcontent (h : i.Intact digest bytes) : content = bytes :=
          Option.some.inj (hfile.symm.trans h.file)
        dsimp only
        split
        · next hlong =>
          refine refused (fun h => ?_) _ nofun
          have hshort := h.readable
          rw [← hcontent h] at hshort
          omega
        · next hshort =>
          split
          · next hforged => exact refused (fun h => hforged (hcontent h ▸ h.genuine)) _ nofun
          · next hgenuine =>
            split
            · next hlarge =>
              refine refused (fun h => ?_) _ nofun
              have hsmall := h.bounded
              rw [← hcontent h] at hsmall
              omega
            · next hsmall =>
              rw [run_cacheBlob_ok]
              constructor
              · intro h
                have heq : content = bytes := Except.ok.inj (Except.ok.inj h)
                subst heq
                exact .inr ⟨rfl, hpersistent, hfile, by omega, not_not.mp hgenuine, by omega⟩
              · intro h
                rcases h with h | ⟨-, h⟩
                · cases h
                · rw [hcontent h]
    · next hvolatile => exact refused (fun h => hvolatile h.persistent) _ nofun

-- ---------------------------------------------------------------------------
-- Reusable entries
-- ---------------------------------------------------------------------------

/-- An entry that a cache query or the consultation of a submission answers as
reusable. -/
inductive Impl.Reuses (i : Impl) (entry : CacheEntry) : Prop
  | query (unitIdentity : Digest256) (id : CacheEntryId)
      (indexed : i.state.cacheIndex[unitIdentity]? = some id)
      (found : i.state.cacheEntries[id]? = some entry)
      (answer : (Wire.cacheQuery i unitIdentity).reusable = true)
  | consult (record : CompilationRecord) (id : CacheEntryId)
      (answer : (i.consultCache record).2 = some id) (found : i.state.cacheEntries[id]? = some entry)

omit [HashFunction] in
theorem reusable_evaluateCacheBlob {compilation : CompilationRecord} {entry : CacheEntry} {blobOk : Bool}
    (h : (evaluateCacheBlob compilation entry blobOk).reusable = true) : blobOk = true := by
  unfold evaluateCacheBlob at h
  dsimp only at h
  split at h
  · next hmiss =>
    rw [h] at hmiss
    cases hmiss
  · split at h
    · cases h
    · next hok =>
      rw [Bool.not_eq_true', Bool.not_eq_false] at hok
      exact hok

omit [HashFunction] in
/-- What is answered as reusable is in the cache or has a file. -/
theorem Impl.Reuses.hasBlob {i : Impl} {entry : CacheEntry} (h : i.Reuses entry) :
    i.hasBlob entry.artifact.digest = true := by
  cases h with
  | query unitIdentity id indexed found answer =>
    unfold Wire.cacheQuery at answer
    rw [indexed] at answer
    dsimp only at answer
    rw [found] at answer
    have hblob := reusable_evaluateCacheBlob answer
    rw [Bool.and_eq_true] at hblob
    exact hblob.2
  | consult record id answer found =>
    unfold Impl.consultCache at answer
    split at answer
    · cases answer
    next key hkey =>
    split at answer
    · cases answer
    next candidate hcandidate =>
    dsimp only at answer
    have hreusable : (if (evaluateCacheMetadata record candidate).reusable = true then
        evaluateCacheBlob record candidate (i.hasBlob candidate.artifact.digest)
        else evaluateCacheMetadata record candidate).reusable = true := by
      by_contra hno
      rw [if_neg hno] at answer
      cases answer
    rw [if_pos hreusable] at answer
    obtain rfl := Option.some.inj answer
    obtain rfl := Option.some.inj (hcandidate.symm.trans found)
    split at hreusable
    · exact reusable_evaluateCacheBlob hreusable
    · next hno => exact absurd hreusable hno

/-- Whatever there is under the digest is what belongs there: the cached copy, or,
where there is none, the file. -/
def Impl.Backed (i : Impl) (digest : Digest256) : Prop :=
  (∀ bytes : Bytes, i.blobCache[digest]? = some bytes → sha256 bytes = digest) ∧
    (i.blobCache[digest]? = none → ∀ bytes : Bytes, i.store.blobs[digest]? = some bytes →
      sha256 bytes = digest ∧ bytes.length ≤ maxSnapshotBytes ∧ bytes.length ≤ i.config.maxBlobBytes)

theorem loads_iff_backed {i : Impl} {digest : Digest256} (has : i.hasBlob digest = true) :
    (∃ bytes, i.Loads digest bytes ∧ sha256 bytes = digest) ↔ i.Backed digest := by
  simp only [loads_iff]
  constructor
  · rintro ⟨bytes, hcopy | ⟨hnone, hintact⟩, hgenuine⟩
    · refine ⟨fun copy hcopy' => ?_, fun hnone => ?_⟩
      · rw [← Option.some.inj (hcopy.symm.trans hcopy'), hgenuine]
      · rw [hcopy] at hnone
        cases hnone
    · refine ⟨fun copy hcopy => ?_, fun _ content hcontent => ?_⟩
      · rw [hnone] at hcopy
        cases hcopy
      · obtain rfl := Option.some.inj (hintact.file.symm.trans hcontent)
        exact ⟨hintact.genuine, hintact.readable, hintact.bounded⟩
  · rintro ⟨hcopies, hfile⟩
    cases hcache : i.blobCache[digest]? with
    | some copy => exact ⟨copy, .inl rfl, hcopies copy hcache⟩
    | none =>
      unfold Impl.hasBlob at has
      rw [Table.contains_eq_false.mpr hcache, Bool.false_or, Bool.and_eq_true] at has
      obtain ⟨content, hcontent⟩ := Table.contains_iff.mp has.2
      obtain ⟨hgenuine, hreadable, hbounded⟩ := hfile hcache content hcontent
      exact ⟨content, .inr ⟨rfl, has.1, hcontent, hreadable, hgenuine, hbounded⟩, hgenuine⟩

/-- What is answered as reusable can be loaded exactly when what stands under its
digest belongs there; in the systems that runs reach, that is when its file is
intact or a copy is cached. -/
theorem reusable_loads_iff :
    (∀ (i : Impl) (entry : CacheEntry), i.Reuses entry →
      ((∃ bytes, i.Loads entry.artifact.digest bytes ∧ sha256 bytes = entry.artifact.digest) ↔
        i.Backed entry.artifact.digest)) ∧
    ∀ sys : System, System.Visited sys → ∀ entry : CacheEntry, sys.impl.Reuses entry →
      ((∃ bytes, sys.impl.Loads entry.artifact.digest bytes ∧ sha256 bytes = entry.artifact.digest) ↔
        sys.impl.blobCache.contains entry.artifact.digest = true ∨
          ∀ bytes : Bytes, sys.impl.store.blobs[entry.artifact.digest]? = some bytes →
            sha256 bytes = entry.artifact.digest ∧ bytes.length ≤ maxSnapshotBytes ∧
              bytes.length ≤ sys.impl.config.maxBlobBytes) := by
  refine ⟨fun i entry hreuses => loads_iff_backed hreuses.hasBlob, fun sys hvisited entry hreuses => ?_⟩
  rw [loads_iff_backed hreuses.hasBlob]
  constructor
  · rintro ⟨-, hfile⟩
    cases hcache : sys.impl.blobCache[entry.artifact.digest]? with
    | some copy => exact .inl (Table.contains_iff.mpr ⟨copy, hcache⟩)
    | none => exact .inr (hfile hcache)
  · intro h
    refine ⟨hvisited.vault.genuine _, fun hnone => ?_⟩
    rcases h with h | h
    · rw [Table.contains_eq_false.mpr hnone] at h
      cases h
    · exact h

end

-- ---------------------------------------------------------------------------
-- A file that was altered
-- ---------------------------------------------------------------------------

/-- An executable that has to be run and whose format is not checked. -/
def executableBundle : SubmissionBundle where
  request := { smallBundle.request with
    validation := { requireFormatCheck := false, requireTargetMetadata := false, requireSmokeTest := true }
    units := [{ logicalName := txt "a", outputKind := .executable, sources := [
      { logicalName := txt "a.cpp", content := { digest := sha256 (txt "x"), size := 1 } }] }] }
  blobs := smallBundle.blobs

/-- A disk that fails, at once or after one write. -/
def failingDisk : Environment := { io := [false, false, false, false, false, false, false, false] }

def lastWrite : Environment := { io := true :: failingDisk.io }

/-- The unit is assigned to the worker; no record of it is on disk. -/
def executableIssued : System :=
  System.step failingDisk .pump (System.step failingDisk (.markReady ⟨1⟩)
    (System.step failingDisk (.registerWorker smallWorker) (System.step failingDisk (.submit executableBundle)
      (System.step lastWrite (.submit executableBundle) persistentFirst))))

def executableClaim : AuthorityClaim :=
  executableIssued.claimFor ⟨1⟩ (executableIssued.compilationOf ⟨1⟩)

def executableBegun : System := System.step failingDisk (.beginCompile executableClaim) executableIssued

def executableOutput : ReportOutput := { claim := executableClaim, bytes := txt "o" }

def executableReserved : Except Fault Reservation × Impl :=
  (reserveOutput ⟨1⟩ executableOutput).run (System.given lastWrite executableBegun.impl)

def executableChecked : System :=
  System.step lastWrite (.validate 0 none) (System.step lastWrite (.reserve ⟨1⟩ executableOutput) executableBegun)

/-- The entry of the cache is the only record of the commit that reaches the disk. -/
def executableCommitted : System := System.step lastWrite (.commit 0) executableChecked

/-- The next process opens the directory, and its files are emptied. -/
def executableDamaged : System :=
  let reopened := System.step lastWrite (.openWith persistent) (System.crash 2 executableCommitted)
  { reopened with impl := { reopened.impl with store := { reopened.impl.store with
      blobs := reopened.impl.store.blobs.map fun _ _ => [] } } }

theorem executableDamaged_visited : System.Visited executableDamaged :=
  .damage _ (.step _ _ (.crash _ (.step _ _ (.step _ _ (.step _ _ (.step _ _ (.step _ _ (.step _ _
    (.step _ _ (.step _ _ (.step _ _ (.step _ _ .fresh))))))))))))

/-- The commit of what was reserved and must be run, without a smoke test. -/
def Impl.commitsUnchecked (k : Impl) : Except Fault Reservation → Bool
  | .ok r => r.requirements.requireSmokeTest && r.outputKind == .executable && k.state.commits.isEmpty &&
    ((commitOutput r.session r.output (r.validate none)).run k).2.state.commits.contains ⟨1⟩
  | .error _ => false

/-- Some cache query answers with an entry that is not cached and whose file is not
the blob. -/
def Impl.misleads (i : Impl) : Bool :=
  i.state.cacheIndex.keys.any fun unitIdentity =>
    match i.state.cacheIndex[unitIdentity]? with
    | none => false
    | some id =>
      match i.state.cacheEntries[id]? with
      | none => false
      | some entry => (Wire.cacheQuery i unitIdentity).reusable &&
          i.blobCache[entry.artifact.digest]?.isNone &&
          (i.store.blobs[entry.artifact.digest]?).any fun bytes => sha256 bytes != entry.artifact.digest

set_option maxRecDepth 100000 in
theorem executable_checks :
    Impl.commitsUnchecked (System.given lastWrite executableChecked.impl) executableReserved.1 = true ∧
      executableDamaged.impl.misleads = true := by
  rw [executableDamaged, executableCommitted, Impl.misleads, executableReserved, executableChecked,
    executableBegun, executableOutput, executableClaim, executableIssued, persistentFirst, executableBundle,
    smallBundle, Impl.commitsUnchecked.eq_def, hashFunction_eq]
  decide +kernel

theorem Impl.of_misleads {i : Impl} (h : i.misleads = true) : ∃ (entry : CacheEntry) (content : Bytes),
    i.Reuses entry ∧ i.blobCache[entry.artifact.digest]? = none ∧
      i.store.blobs[entry.artifact.digest]? = some content ∧ sha256 content ≠ entry.artifact.digest := by
  unfold Impl.misleads at h
  obtain ⟨unitIdentity, -, h⟩ := List.any_eq_true.mp h
  split at h
  · cases h
  next id hindexed =>
  split at h
  · cases h
  next entry hfound =>
  rw [Bool.and_eq_true, Bool.and_eq_true, Option.isNone_iff_eq_none, Option.any_eq_true] at h
  obtain ⟨⟨hanswer, hnone⟩, content, hcontent, hforged⟩ := h
  exact ⟨entry, content, .query unitIdentity id hindexed hfound hanswer, hnone, hcontent, bne_iff_ne.mp hforged⟩

theorem reusable_loads_iff_damaged : ∃ entry : CacheEntry, executableDamaged.impl.Reuses entry ∧
    ((∃ bytes, executableDamaged.impl.Loads entry.artifact.digest bytes ∧ sha256 bytes = entry.artifact.digest) ↔
      executableDamaged.impl.Backed entry.artifact.digest) := by
  obtain ⟨entry, -, hreuses, -⟩ := Impl.of_misleads executable_checks.2
  exact ⟨entry, hreuses, reusable_loads_iff.1 _ entry hreuses⟩

/-- A cache query in a reopened coordinator offers an artifact whose file was emptied. -/
theorem not_reusable_loads : ¬∀ sys : System, System.Visited sys → ∀ entry : CacheEntry,
    sys.impl.Reuses entry →
      ∃ bytes, sys.impl.Loads entry.artifact.digest bytes ∧ sha256 bytes = entry.artifact.digest := by
  intro h
  obtain ⟨entry, content, hreuses, hnone, hcontent, hforged⟩ := Impl.of_misleads executable_checks.2
  obtain ⟨bytes, hloads, hgenuine⟩ := h _ executableDamaged_visited entry hreuses
  rcases (loads_iff _ _ _).mp hloads with hcopy | ⟨-, hintact⟩
  · rw [hnone] at hcopy
    cases hcopy
  · obtain rfl := Option.some.inj (hintact.file.symm.trans hcontent)
    exact hforged hgenuine

end DistributedCompilation
