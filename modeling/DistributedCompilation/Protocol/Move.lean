import DistributedCompilation.Protocol.Act

/-!
# Distributed Compilation — moves

A run of the coordinator between two calls, act by act, with what reaches the
store. The tables a crash has to bring back (`Mirrored`) change together with
the append of the entity that changed, or the change is counted as lost.

A commit is published before its own record is appended, and a superseded one
is withdrawn only after it; a `Turn` is a move or one of these two as a whole.
-/

namespace DistributedCompilation

variable [HashFunction] (permits : Hazard → State → Prop)

/-- An appended entity is what its table holds. -/
def Entity.Backed (s : State) : Entity → Prop
  | .header .. => True
  | .worker v => ∃ id : WorkerId, s.workers[id]? = some v
  | .compilation v => ∃ id : CompilationId, s.compilations[id]? = some v
  | .attempt v => ∃ id : CompilationAttemptId, s.attempts[id]? = some v
  | .commit v => ∃ id : ArtifactCommitId, s.commits[id]? = some v
  | .provenance v => ∃ id : ProvenanceId, s.provenances[id]? = some v
  | .validation v => ∃ id : ValidationId, s.validations[id]? = some v
  | .cacheEntry v => ∃ id : CacheEntryId, s.cacheEntries[id]? = some v
  | .job v => ∃ identity : Digest256, s.jobs[identity]? = some v
  | .lease v => ∃ id : LeaseId, s.leases[id]? = some v
  | .intermediate v => ∃ id : IntermediateId, s.intermediates[id]? = some v
  | .artifact v => permits (.retain v) s

/-- The tables whose every change is appended with it. -/
structure Mirrored (s s' : State) : Prop where
  commits : s'.commits = s.commits
  authoritative : s'.authoritative = s.authoritative
  cacheEntries : s'.cacheEntries = s.cacheEntries
  cacheIndex : s'.cacheIndex = s.cacheIndex

omit [HashFunction] in
theorem Mirrored.refl (s : State) : Mirrored s s := ⟨rfl, rfl, rfl, rfl⟩

omit [HashFunction] in
/-- The count of journal records is not mirrored. -/
theorem Mirrored.recount {s s' : State} (h : Mirrored s s') (n n' : Nat) :
    Mirrored (s.recount n) (s'.recount n') :=
  ⟨h.commits, h.authoritative, h.cacheEntries, h.cacheIndex⟩

/-- What an appended entity says about the change that led to `s'`. A commit is
appended in a turn only. -/
def Entity.Records (s s' : State) : Entity → Prop
  | .commit _ => False
  | .cacheEntry v => s'.commits = s.commits ∧ s'.authoritative = s.authoritative ∧
      ∃ id, s'.cacheEntries = s.cacheEntries.insert id v
  | _ => Mirrored s s'

omit [HashFunction] in
theorem Entity.Records.recount {s s' : State} {e : Entity} (h : e.Records s s') (n n' : Nat) :
    e.Records (s.recount n) (s'.recount n') := by
  cases e with
  | commit | cacheEntry => exact h
  | _ => exact Mirrored.recount h n n'

/-- What is outside the state and the journal. -/
structure SameStore (i i' : Impl) : Prop where
  state : i'.state = i.state
  config : i'.config = i.config
  opened : i'.opened = i.opened
  isOpen : i'.store.isOpen = i.store.isOpen
  snapshot : i'.store.snapshot = i.store.snapshot
  journal : i'.store.journal = i.store.journal
  lost : i'.store.lost = i.store.lost

/-- The journal with one more entity. -/
def Store.appended (store : Store) (e : Entity) : Store :=
  { store with journal := store.journal ++ [(e.type, e.record.bytes)] }

/-- The store after an append that did not happen. -/
def Store.losing (store : Store) : Store := { store with lost := store.lost + 1 }

/-- An act, or none. -/
def Acts (s s' : State) : Prop := s' = s ∨ Act permits s s'

inductive Move (i : Impl) : Impl → Prop
  | quiet {i' : Impl} (same : SameStore i i') : Move i i'
  | act {s' : State} (act : Act permits i.state s') (mirrored : Mirrored i.state s') :
      Move i { i with state := s' }
  | write {s' : State} (e : Entity) (act : Acts permits i.state s')
      (records : e.Records i.state s') (fits : e.record.fits = true) (backed : e.Backed permits s')
      (enabled : i.config.enablePersistence = true) :
      Move i { i with state := s'.counted, store := i.store.appended e }
  | lose {s' : State} (act : Acts permits i.state s') :
      Move i { i with state := s', store := i.store.losing }
  | skip {s' : State} (act : Acts permits i.state s')
      (disabled : i.config.enablePersistence = false) :
      Move i { i with state := s' }

/-- Any number of moves. -/
abbrev Moves : Impl → Impl → Prop := Relation.ReflTransGen (Move permits)

inductive Turn (i : Impl) : Impl → Prop
  | move {i' : Impl} (move : Move permits i i') : Turn i i'
  /-- a superseded commit is appended and withdrawn -/
  | retire {id : CompilationId} {prior : ArtifactCommitId} {commit : ArtifactCommit}
      (supersede : Act permits i.state (i.state.supersede id))
      (found : i.state.authoritative[id]? = some prior)
      (superseded : (i.state.supersede id).commits[prior]? = some commit)
      (withdraw : Act permits (i.state.supersede id).counted
        ((i.state.supersede id).counted.withdraw id))
      (fits : (Entity.commit commit).record.fits = true)
      (enabled : i.config.enablePersistence = true) :
      Turn i { i with
        state := (i.state.supersede id).counted.withdraw id
        store := i.store.appended (.commit commit) }
  /-- a commit is published, what goes with it and then itself appended -/
  | commit {i' : Impl} {id : CompilationId} {validation : ValidationReport}
      {provenance : Provenance} {commit : ArtifactCommit}
      (publish : Act permits i.state (i.state.publish id validation provenance commit))
      (moves : Moves permits { i with state := i.state.publish id validation provenance commit } i')
      (own : commit.compilation = id)
      (fits : (Entity.commit commit).record.fits = true)
      (enabled : i.config.enablePersistence = true) :
      Turn i { i' with
        state := i'.state.counted
        store := i'.store.appended (.commit commit) }
  | snapshot (fits : (encodeState i.state).fits = true) :
      Turn i { i with store :=
        { i.store with snapshot := (encodeState i.state).bytes, journal := [] } }
  | closeStore : Turn i { i with store := { i.store with isOpen := false } }

/-- Any number of turns. -/
abbrev Turns : Impl → Impl → Prop := Relation.ReflTransGen (Turn permits)

theorem Moves.turns {i i' : Impl} (h : Moves permits i i') : Turns permits i i' :=
  Relation.ReflTransGen.mono (fun _ _ h => Turn.move h) i i' h

end DistributedCompilation
