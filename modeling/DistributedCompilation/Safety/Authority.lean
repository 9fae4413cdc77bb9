import DistributedCompilation.Protocol.Act

/-!
# Distributed Compilation — exactly one authority

The invariant behind "exactly once": a compilation's live commit is the one its
entry of the authoritative map names, and a superseded commit belongs to a
generation the compilation has left.
-/

namespace DistributedCompilation

/-- Commits, authoritative map and compilation generations agree. -/
structure State.Consistent (s : State) : Prop where
  keyed : ∀ (k : ArtifactCommitId) (commit : ArtifactCommit),
    s.commits[k]? = some commit → commit.id = k
  numbered : ∀ (k : ArtifactCommitId) (commit : ArtifactCommit),
    s.commits[k]? = some commit → k.value < s.header.nextCommitId
  /-- a commit belongs to a generation its compilation has reached -/
  reached : ∀ (k : ArtifactCommitId) (commit : ArtifactCommit), s.commits[k]? = some commit →
    ∃ record : CompilationRecord, s.compilations[commit.compilation]? = some record ∧
      commit.compilationGeneration.value ≤ record.generation.value
  /-- a live commit is the authority of its compilation -/
  live : ∀ (k : ArtifactCommitId) (commit : ArtifactCommit), s.commits[k]? = some commit →
    commit.superseded = false → s.authoritative[commit.compilation]? = some k
  /-- a superseded one belongs to a generation that is over -/
  retired : ∀ (k : ArtifactCommitId) (commit : ArtifactCommit) (record : CompilationRecord),
    s.commits[k]? = some commit → commit.superseded = true →
    s.compilations[commit.compilation]? = some record →
    commit.compilationGeneration.value < record.generation.value
  named : ∀ (id : CompilationId) (k : ArtifactCommitId), s.authoritative[id]? = some k →
    ∃ commit : ArtifactCommit, s.commits[k]? = some commit ∧ commit.compilation = id
  once : ∀ (k k' : ArtifactCommitId) (commit commit' : ArtifactCommit),
    s.commits[k]? = some commit → s.commits[k']? = some commit' →
    commit.compilation = commit'.compilation →
    commit.compilationGeneration = commit'.compilationGeneration → k = k'

namespace State.Consistent

variable {s s' : State}

theorem initial : State.Consistent {} := by
  constructor <;> intros <;> simp_all

/-- What the invariant does not look at may change. -/
theorem frame (h : s.Consistent) (commits : s'.commits = s.commits)
    (authoritative : s'.authoritative = s.authoritative)
    (counter : s'.header.nextCommitId = s.header.nextCommitId)
    (forth : ∀ (id : CompilationId) (record : CompilationRecord),
      s.compilations[id]? = some record → ∃ record', s'.compilations[id]? = some record' ∧
        record'.generation = record.generation)  :
    s'.Consistent where
  keyed k commit hk := h.keyed k commit (commits ▸ hk)
  numbered k commit hk := counter ▸ h.numbered k commit (commits ▸ hk)
  reached k commit hk := by
    obtain ⟨record, hrecord, hle⟩ := h.reached k commit (commits ▸ hk)
    obtain ⟨record', hrecord', hgen⟩ := forth _ _ hrecord
    exact ⟨record', hrecord', by rw [hgen]; exact hle⟩
  live k commit hk hlive := authoritative ▸ h.live k commit (commits ▸ hk) hlive
  retired k commit record' hk hsup hrecord' := by
    obtain ⟨record, hrecord, -⟩ := h.reached k commit (commits ▸ hk)
    obtain ⟨record'', hrecord'', hgen⟩ := forth _ _ hrecord
    obtain rfl : record'' = record' := Option.some.inj (hrecord''.symm.trans hrecord')
    rw [hgen]
    exact h.retired k commit record (commits ▸ hk) hsup hrecord
  named id k hk := by
    rw [commits]
    exact h.named id k (authoritative ▸ hk)
  once k k' commit commit' hk hk' := h.once k k' commit commit' (commits ▸ hk) (commits ▸ hk')

/-- Outside the compilations nothing but the frame matters. -/
theorem frame' (h : s.Consistent) (commits : s'.commits = s.commits)
    (authoritative : s'.authoritative = s.authoritative)
    (counter : s'.header.nextCommitId = s.header.nextCommitId)
    (compilations : s'.compilations = s.compilations) : s'.Consistent :=
  h.frame commits authoritative counter fun _ record hr => ⟨record, compilations ▸ hr, rfl⟩

/-- Updating a compilation record within its generation. -/
theorem withCompilation (h : s.Consistent) {id : CompilationId}
    {f : CompilationRecord → CompilationRecord}
    (hf : ∀ old, s.compilations[id]? = some old → (f old).generation = old.generation) :
    (s.withCompilation id f).Consistent := by
  refine h.frame rfl rfl rfl fun id' record hrecord => ?_
  by_cases hid : id = id'
  · subst hid
    exact ⟨f record, by simp [State.withCompilation, hrecord], hf _ hrecord⟩
  · exact ⟨record, by simp [State.withCompilation, Table.get_modify, hid, hrecord], rfl⟩

/-- A new compilation has no commits. -/
theorem create (h : s.Consistent) {record : CompilationRecord}
    (fresh : s.compilations[record.id]? = none) : (s.create record).Consistent := by
  refine h.frame rfl rfl rfl fun id' old hold => ⟨old, ?_, rfl⟩
  have hne : record.id ≠ id' := by rintro rfl; simp [fresh] at hold
  simp [State.create, Table.get_insert, hne, hold]

/-- A forced rebuild leaves the generation its commit belongs to. -/
theorem supersede (h : s.Consistent) {id : CompilationId} {record : CompilationRecord}
    (found : s.compilations[id]? = some record) : (s.supersede id).Consistent := by
  -- the commits, up to the mark on the one the authoritative map names
  have hcommits : ∀ (k : ArtifactCommitId) (commit : ArtifactCommit),
      (s.supersede id).commits[k]? = some commit → ∃ old, s.commits[k]? = some old ∧
        commit.id = old.id ∧ commit.compilation = old.compilation ∧
        commit.compilationGeneration = old.compilationGeneration ∧
        (commit.superseded = old.superseded ∨
          (s.authoritative[id]? = some k ∧ commit.superseded = true)) := by
    intro k commit hk
    simp only [State.supersede, State.withCompilation] at hk
    split at hk
    next => exact ⟨commit, hk, rfl, rfl, rfl, .inl rfl⟩
    next prior hprior =>
      obtain ⟨old, hold, hcommit | ⟨rfl, hcommit⟩⟩ := Table.of_get_modify hk
      · exact ⟨old, hold, by simp [hcommit]⟩
      · exact ⟨old, hold, by simp [hcommit, hprior]⟩
  have hauth : (s.supersede id).authoritative = s.authoritative := by
    simp only [State.supersede, State.withCompilation]
    split <;> rfl
  have hcounter : (s.supersede id).header = s.header := by
    simp only [State.supersede, State.withCompilation]
    split <;> rfl
  have hrecords : ∀ id' : CompilationId, (s.supersede id).compilations[id']? =
      if id = id' then some { record with generation := record.generation.next }
      else s.compilations[id']? := by
    intro id'
    simp only [State.supersede, State.withCompilation]
    split <;> simp [State.withCommit, Table.get_modify, found]
  have hgrow : ∀ (id' : CompilationId) (old : CompilationRecord), s.compilations[id']? = some old →
      ∃ new, (s.supersede id).compilations[id']? = some new ∧
        old.generation.value ≤ new.generation.value ∧
        (id' = id → old.generation.value < new.generation.value) := by
    intro id' old hold
    rw [hrecords]
    by_cases hid : id = id'
    · subst hid
      obtain rfl : record = old := Option.some.inj (found.symm.trans hold)
      exact ⟨_, if_pos rfl, Nat.le_succ _, fun _ => Nat.lt_succ_self _⟩
    · exact ⟨old, by rw [if_neg hid, hold], Nat.le_refl _, fun h => absurd h.symm hid⟩
  constructor
  case keyed =>
    intro k commit hk
    obtain ⟨old, hold, hkey, -⟩ := hcommits k commit hk
    rw [hkey, h.keyed k old hold]
  case numbered =>
    intro k commit hk
    obtain ⟨old, hold, -⟩ := hcommits k commit hk
    rw [hcounter]
    exact h.numbered k old hold
  case reached =>
    intro k commit hk
    obtain ⟨old, hold, -, hcomp, hgen, -⟩ := hcommits k commit hk
    obtain ⟨r, hr, hle⟩ := h.reached k old hold
    obtain ⟨r', hr', hgrown, -⟩ := hgrow _ _ hr
    exact ⟨r', by rw [hcomp, hr'], by rw [hgen]; omega⟩
  case live =>
    intro k commit hk hlive
    obtain ⟨old, hold, -, hcomp, -, hsup | ⟨-, hsup⟩⟩ := hcommits k commit hk
    · rw [hauth, hcomp]
      exact h.live k old hold (hsup ▸ hlive)
    · exact absurd hsup (by simp [hlive])
  case retired =>
    intro k commit r' hk hretired hr'
    obtain ⟨old, hold, -, hcomp, hgen, hsup⟩ := hcommits k commit hk
    obtain ⟨r, hr, hle⟩ := h.reached k old hold
    obtain ⟨r'', hr'', hgrown, hown⟩ := hgrow _ _ hr
    obtain rfl : r'' = r' := Option.some.inj (hr''.symm.trans (hcomp ▸ hr'))
    rw [hgen]
    rcases hsup with hsup | ⟨hnamed, -⟩
    · have := h.retired k old r hold (hsup ▸ hretired) hr
      omega
    · -- the commit just marked is the one of this compilation
      obtain ⟨named, hnamed', hid⟩ := h.named id k hnamed
      obtain rfl : named = old := Option.some.inj (hnamed'.symm.trans hold)
      have := hown hid
      omega
  case named =>
    intro id' k hk
    obtain ⟨old, hold, hid⟩ := h.named id' k (hauth ▸ hk)
    simp only [State.supersede, State.withCompilation]
    split
    next => exact ⟨old, hold, hid⟩
    next prior hprior =>
      simp only [State.withCommit, Table.get_modify]
      split
      next hprior => exact ⟨{ old with superseded := true }, by simp [hprior, hold], hid⟩
      next => exact ⟨old, hold, hid⟩
  case once =>
    intro k k' commit commit' hk hk' hcomp hgen
    obtain ⟨old, hold, -, hc, hg, -⟩ := hcommits k commit hk
    obtain ⟨old', hold', -, hc', hg', -⟩ := hcommits k' commit' hk'
    exact h.once k k' old old' hold hold' (by rw [← hc, ← hc', hcomp]) (by rw [← hg, ← hg', hgen])

/-- Erasing an authority whose commit is superseded. -/
theorem withdraw (h : s.Consistent) {id : CompilationId} {prior : ArtifactCommitId}
    (found : s.authoritative[id]? = some prior)
    (superseded : ∀ commit : ArtifactCommit, s.commits[prior]? = some commit → commit.superseded = true) :
    (s.withdraw id).Consistent where
  keyed := h.keyed
  numbered := h.numbered
  reached := h.reached
  retired := h.retired
  once := h.once
  live k commit hk hlive := by
    have hauth := h.live k commit hk hlive
    simp only [State.withdraw, Table.get_erase]
    split
    next hid =>
      subst hid
      obtain rfl : prior = k := Option.some.inj (found.symm.trans hauth)
      exact absurd (superseded commit hk) (by simp [hlive])
    next => exact hauth
  named id' k hk := by
    simp only [State.withdraw, Table.get_erase] at hk
    split at hk
    · cases hk
    · exact h.named id' k hk

/-- The commit of a compilation without a live one takes the next number and the
current generation. -/
theorem publish (h : s.Consistent) {id : CompilationId} {stored : CompilationRecord}
    {validation : ValidationReport} {provenance : Provenance} {commit : ArtifactCommit}
    (found : s.compilations[id]? = some stored) (free : s.liveCommit id = none)
    (number : commit.id = ⟨s.header.nextCommitId⟩) (own : commit.compilation = id)
    (current : commit.compilationGeneration = stored.generation)
    (fresh : commit.superseded = false) :
    (s.publish id validation provenance commit).Consistent := by
  -- whatever the compilation had before is superseded
  have hpast : ∀ (k : ArtifactCommitId) (old : ArtifactCommit), s.commits[k]? = some old →
      old.compilation = id → old.superseded = true := by
    intro k old hold hid
    by_contra hsup
    have hauth := h.live k old hold (by simpa using hsup)
    rw [hid] at hauth
    simp [State.liveCommit, hauth, hold, hsup] at free
  have hnew : ∀ (k : ArtifactCommitId) (old : ArtifactCommit), s.commits[k]? = some old →
      commit.id ≠ k := by
    intro k old hold hk
    have := h.numbered k old hold
    rw [← hk, number] at this
    exact absurd this (Nat.lt_irrefl _)
  have hlookup : ∀ (k : ArtifactCommitId) (found : ArtifactCommit),
      (s.publish id validation provenance commit).commits[k]? = some found →
      (k = commit.id ∧ found = commit) ∨ s.commits[k]? = some found := by
    intro k found hk
    simp only [State.publish, Table.get_insert] at hk
    split at hk
    next hid => exact .inl ⟨hid.symm, (Option.some.inj hk).symm⟩
    next => exact .inr hk
  constructor
  case keyed =>
    intro k found hk
    rcases hlookup k found hk with ⟨rfl, rfl⟩ | hold
    · rfl
    · exact h.keyed k found hold
  case numbered =>
    intro k found hk
    show k.value < s.header.nextCommitId + 1
    rcases hlookup k found hk with ⟨rfl, rfl⟩ | hold
    · rw [number]
      exact Nat.lt_succ_self _
    · exact Nat.lt_succ_of_lt (h.numbered k found hold)
  case reached =>
    intro k found' hk
    rcases hlookup k found' hk with ⟨rfl, rfl⟩ | hold
    · exact ⟨stored, by rw [own]; exact found, by rw [current]⟩
    · exact h.reached k found' hold
  case live =>
    intro k found' hk hlive
    simp only [State.publish, Table.get_insert]
    rcases hlookup k found' hk with ⟨rfl, rfl⟩ | hold
    · rw [if_pos own.symm]
    · rw [if_neg fun hid => by simp [hpast k found' hold hid.symm] at hlive]
      exact h.live k found' hold hlive
  case retired =>
    intro k found' record hk hsup hrecord
    rcases hlookup k found' hk with ⟨rfl, rfl⟩ | hold
    · simp [fresh] at hsup
    · exact h.retired k found' record hold hsup hrecord
  case named =>
    intro id' k hk
    simp only [State.publish, Table.get_insert] at hk ⊢
    split at hk
    next hid =>
      obtain rfl := Option.some.inj hk
      exact ⟨commit, if_pos rfl, by rw [own, hid]⟩
    next =>
      obtain ⟨old, hold, hcomp⟩ := h.named id' k hk
      exact ⟨old, by rw [if_neg (hnew k old hold), hold], hcomp⟩
  case once =>
    intro k k' c c' hk hk' hcomp hgen
    -- an older commit of this compilation belongs to an older generation
    have holder : ∀ (k : ArtifactCommitId) (old : ArtifactCommit), s.commits[k]? = some old →
        old.compilation = commit.compilation →
        old.compilationGeneration ≠ commit.compilationGeneration := by
      intro k old hold hc hg
      have := h.retired k old stored hold (hpast k old hold (hc.trans own))
        (by rw [hc, own]; exact found)
      rw [hg, current] at this
      exact absurd this (Nat.lt_irrefl _)
    rcases hlookup k c hk with ⟨rfl, rfl⟩ | hold <;> rcases hlookup k' c' hk' with ⟨rfl, rfl⟩ | hold'
    · rfl
    · exact absurd hgen.symm (holder k' c' hold' hcomp.symm)
    · exact absurd hgen (holder k c hold hcomp)
    · exact h.once k k' c c' hold hold' hcomp hgen

/-- Every act keeps the authorities consistent, hazardous or not. -/
theorem act [HashFunction] {permits : Hazard → State → Prop} (h : s.Consistent)
    (a : Act permits s s') : s'.Consistent := by
  cases a with
  | recount | retain | evict | attempt | worker | lease | revokeWorker | session | enroll | fence
  | violation | controls | putJob | job | intermediate | drawEntry | touch | invalidate
  | indexEntry => exact h.frame' rfl rfl rfl rfl
  | resolve _ resolves => cases resolves <;> exact h.frame' rfl rfl rfl rfl
  | create fresh _ => exact h.create fresh
  | supersede found _ => exact h.supersede found
  | withdraw found superseded => exact h.withdraw found superseded
  | lower => exact h.withCompilation fun _ _ => rfl
  | record update => exact h.withCompilation fun old hold => congrArg (·.generation) (update old hold).frozen
  | @assign id _ _ worker _ _ createdAt _ updatedAt =>
    exact (h.withCompilation (f := (·.assigned ⟨s.header.nextAttemptId⟩ updatedAt))
      fun _ _ => rfl).frame' rfl rfl rfl rfl
  | publish found same _ own _ _ _ _ free =>
    exact h.publish found free rfl own (congrArg (·.generation) same) rfl

end State.Consistent

end DistributedCompilation
