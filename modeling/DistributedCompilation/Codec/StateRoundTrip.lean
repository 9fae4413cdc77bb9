import DistributedCompilation.Codec.RegistryRoundTrip
import DistributedCompilation.Codec.Recovered

/-!
# Distributed Compilation — a snapshot read back

Compilations, commits and authorities of a snapshot come back as they were
written, each under its own id.
-/

namespace DistributedCompilation

open Decoder Reader

-- ---------------------------------------------------------------------------
-- Tables
-- ---------------------------------------------------------------------------

section Tables

variable {κ α : Type} [Ord κ] [Std.TransOrd κ] [Std.LawfulEqOrd κ] [DecidableEq κ]

/-- A record is found under its key when no other one has that key. -/
theorem get_tableOf {key : α → κ} {records : List α} {v : α} (h : v ∈ records)
    (alone : ∀ u ∈ records, key u = key v → u = v) : (tableOf key records)[key v]? = some v := by
  unfold tableOf
  induction records using List.reverseRecOn with
  | nil => cases h
  | append_singleton records record ih =>
    rw [List.foldl_append, List.foldl_cons, List.foldl_nil, Table.get_insert]
    split
    next hkey =>
      rw [alone record (List.mem_append_right _ (List.mem_singleton_self _)) hkey]
    next hkey =>
      refine ih ?_ fun u hu => alone u (List.mem_append_left _ hu)
      rcases List.mem_append.mp h with hold | hnew
      · exact hold
      · obtain rfl := List.mem_singleton.mp hnew
        exact absurd rfl hkey

/-- A table whose values carry their keys is built again from its values. -/
theorem tableOf_values {key : α → κ} {t : Table κ α}
    (keyed : ∀ (k : κ) (v : α), t[k]? = some v → key v = k) : tableOf key t.values = t := by
  refine Table.ext fun k => ?_
  cases hold : t[k]? with
  | some v =>
    rw [← keyed k v hold]
    refine get_tableOf (Table.mem_values_of_get hold) fun u hu hkey => ?_
    obtain ⟨k', hu'⟩ := Table.mem_values hu
    rw [← keyed k' u hu', hkey, keyed k v hold, hold] at hu'
    exact (Option.some.inj hu').symm
  | none =>
    cases hnew : (tableOf key t.values)[k]? with
    | none => rfl
    | some v =>
      obtain ⟨hkey, hmem⟩ := of_tableOf hnew
      obtain ⟨k', hv⟩ := Table.mem_values hmem
      rw [← keyed k' v hv, hkey, hold] at hv
      cases hv

/-- A table is built again from its entries. -/
theorem map_tableOf_toList (t : Table κ α) : (tableOf (·.1) t.toList).map (fun _ kv => kv.2) = t := by
  have listed : ∀ {kv : κ × α}, kv ∈ t.toList ↔ t[kv.1]? = some kv.2 :=
    Std.ExtTreeMap.mem_toList_iff_getElem?_eq_some
  refine Table.ext fun k => ?_
  rw [Table.get_map]
  cases hold : t[k]? with
  | some v =>
    have hfound := @get_tableOf κ (κ × α) _ _ _ _ (·.1) t.toList (k, v) (listed.mpr hold) ?_
    · rw [hfound]
      rfl
    · rintro ⟨k', u⟩ hu rfl
      have hsame : u = v := Option.some.inj ((listed.mp hu).symm.trans hold)
      rw [hsame]
  | none =>
    cases hnew : (tableOf (·.1) t.toList)[k]? with
    | none => rfl
    | some kv =>
      obtain ⟨rfl, hmem⟩ := of_tableOf hnew
      rw [listed.mp hmem] at hold
      cases hold

end Tables

-- ---------------------------------------------------------------------------
-- Reading tables
-- ---------------------------------------------------------------------------

section Read

variable {α β γ : Type} {rest : Bytes}

/-- A written table that is accepted is read back record by record. -/
theorem parse_of_readTable {stage : String} {d : Reader γ} {write : α → Record} {reread : α → Option γ}
    {items : List α} {f : List γ → Reader β} {out : β × Bytes}
    (fits : (writeTable items write).eachFits = true)
    (each : ∀ item ∈ items, (write item).eachFits = true → ∀ rest,
      d.parse ((write item).bytes ++ rest) = (reread item).map (·, rest))
    (h : (readTable stage d >>= f).parse ((writeTable items write).bytes ++ rest) = some out) :
    ∃ read : List γ, items.mapM reread = some read ∧ (f read).parse rest = some out := by
  simp only [writeTable, Record.eachFits_cons, Record.eachFits_flatMap, Bool.and_eq_true,
    List.all_eq_true] at fits
  obtain ⟨hcount, heach⟩ := fits
  have hread : (replicate d items.length).parse ((Record.bytes (items.flatMap write)) ++ rest) =
      (items.mapM reread).map (·, rest) := by
    rw [Record.bytes_flatMap]
    exact parse_replicate_mapM _ rest fun item hitem => each item hitem (heach item hitem)
  rw [readTable, parse_staged_bind, parse_bind] at h
  simp only [writeTable, Record.bytes_cons, List.append_assoc, parse_readCounter _ hcount, parse_ite,
    hread] at h
  obtain ⟨⟨read, left⟩, hparse, h⟩ := Option.bind_eq_some_iff.mp h
  split at hparse
  · cases hparse
  · obtain ⟨values, hvalues, hpair⟩ := Option.map_eq_some_iff.mp hparse
    cases hpair
    exact ⟨read, hvalues, h⟩

/-- Records that are accepted or refused come back themselves. -/
theorem eq_of_mapM_guard {ok : α → Prop} [DecidablePred ok] {items read : List α}
    (h : (items.mapM fun item => if ok item then some item else none) = some read) : read = items := by
  induction items generalizing read with
  | nil => exact (Option.some.inj h).symm
  | cons item items ih =>
    rw [List.mapM_cons] at h
    obtain ⟨one, hone, h⟩ := Option.bind_eq_some_iff.mp h
    obtain ⟨more, hmore, h⟩ := Option.bind_eq_some_iff.mp h
    obtain rfl := Option.some.inj h
    rw [ih hmore]
    split at hone
    · rw [← Option.some.inj hone]
    · cases hone

theorem parse_of_readGuarded {stage : String} {d : Reader α} {write : α → Record} {ok : α → Prop}
    [DecidablePred ok] {items : List α} {f : List α → Reader β} {out : β × Bytes}
    (fits : (writeTable items write).eachFits = true)
    (each : ∀ item ∈ items, (write item).eachFits = true → ∀ rest,
      d.parse ((write item).bytes ++ rest) = if ok item then some (item, rest) else none)
    (h : (readTable stage d >>= f).parse ((writeTable items write).bytes ++ rest) = some out) :
    (f items).parse rest = some out := by
  have guarded : ∀ item ∈ items, (write item).eachFits = true → ∀ rest,
      d.parse ((write item).bytes ++ rest) = (if ok item then some item else none).map (·, rest) := by
    intro item hitem hfits rest
    rw [each item hitem hfits]
    split <;> rfl
  obtain ⟨read, hread, h⟩ := parse_of_readTable fits guarded h
  rw [eq_of_mapM_guard hread] at h
  exact h

theorem parse_decodeAuthoritative (kv : CompilationId × ArtifactCommitId)
    (h : (Record.eachFits [.id kv.1, .id kv.2]) = true) (rest : Bytes) :
    decodeAuthoritative.parse (Record.bytes [.id kv.1, .id kv.2] ++ rest) =
      if kv.1.isZero = false ∧ kv.2.isZero = false then some (kv, rest) else none := by
  simp only [Record.eachFits_cons, Bool.and_eq_true] at h
  simp only [decodeAuthoritative, Record.bytes_cons, Record.bytes_nil, List.append_assoc, List.nil_append,
    parse_readId, h, parse_pure, ite_and]

end Read

-- ---------------------------------------------------------------------------
-- The snapshot
-- ---------------------------------------------------------------------------

/-- Header, compilations, commits and authorities are the same. -/
structure State.Recalls (saved s : State) : Prop where
  header : s.header = saved.header
  compilations : s.compilations = saved.compilations
  commits : s.commits = saved.commits
  authoritative : s.authoritative = saved.authoritative

variable [HashFunction]

theorem recalls_of_decodeState {saved s : State} (hl : saved.Listed)
    (compilations : ∀ (id : CompilationId) (record : CompilationRecord),
      saved.compilations[id]? = some record → record.id = id)
    (commits : ∀ (k : ArtifactCommitId) (commit : ArtifactCommit),
      saved.commits[k]? = some commit → commit.id = k)
    (hfits : (encodeState saved).eachFits = true)
    (h : decodeState (encodeState saved).bytes = .ok s) : saved.Recalls s := by
  have hread : ∃ rest, readState.parse (encodeState saved).bytes = some (s, rest) := by
    unfold decodeState at h
    split at h
    · cases h
    next state rest hrun =>
      split at h
      · cases h
        exact ⟨rest, parse_of_run hrun⟩
      · cases h
  obtain ⟨rest, hread⟩ := hread
  simp only [encodeState, Record.join_cons, Record.join_nil, Record.eachFits_append,
    Bool.and_eq_true] at hfits
  obtain ⟨hheader, hsources, hirs, hdependencies, htoolchains, htargets, hspecializations,
    hpolicies, hworkers, hrequests, hjobs, hcompilations, hattempts, hcommits, hauthoritative, -⟩ := hfits
  simp only [encodeState, Record.join_cons, Record.bytes_append] at hread
  rw [readState, parse_bind_of_parse (parse_decodeHeader _ hheader), parse_staged_bind] at hread
  have hread := parse_of_decodeRegistry hl.sources hsources hread
  rw [parse_staged_bind] at hread
  have hread := parse_of_decodeRegistry hl.irs hirs hread
  rw [parse_staged_bind] at hread
  have hread := parse_of_decodeRegistry hl.dependencies hdependencies hread
  rw [parse_staged_bind] at hread
  have hread := parse_of_decodeRegistry hl.toolchains htoolchains hread
  rw [parse_staged_bind] at hread
  have hread := parse_of_decodeRegistry hl.targets htargets hread
  rw [parse_staged_bind] at hread
  have hread := parse_of_decodeRegistry hl.specializations hspecializations hread
  rw [parse_staged_bind] at hread
  have hread := parse_of_decodeRegistry hl.policies hpolicies hread
  obtain ⟨workers, -, hread⟩ := parse_of_readTable hworkers
    (fun worker _ hfits rest => parse_decodeWorker worker rest hfits) hread
  obtain ⟨requests, -, hread⟩ := parse_of_readTable hrequests
    (fun request _ hfits rest => parse_decodeRequest request rest hfits) hread
  have hread := parse_of_readGuarded hjobs (fun job _ hfits rest => parse_decodeJob job rest hfits) hread
  have hread := parse_of_readGuarded hcompilations
    (fun record _ hfits rest => parse_decodeCompilation record rest hfits) hread
  have hread := parse_of_readGuarded hattempts
    (fun attempt _ hfits rest => parse_decodeAttempt attempt rest hfits) hread
  have hread := parse_of_readGuarded hcommits
    (fun commit _ hfits rest => parse_decodeCommit commit rest hfits) hread
  have hread := parse_of_readGuarded hauthoritative
    (fun kv _ hfits rest => parse_decodeAuthoritative kv hfits rest) hread
  iterate 7
    rw [parse_bind] at hread
    obtain ⟨_, -, hread⟩ := Option.bind_eq_some_iff.mp hread
  cases hread
  exact ⟨rfl, tableOf_values compilations, tableOf_values commits, map_tableOf_toList _⟩

end DistributedCompilation
