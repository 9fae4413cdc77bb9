import DistributedCompilation.Codec.RecordRoundTrip
import DistributedCompilation.Codec.StateCodec
import DistributedCompilation.Safety.Generations

/-!
# Distributed Compilation — registries in the snapshot

What `decodeRegistry` makes of a written registry. Every slot comes back with
the pairs it recorded in the order it recorded them; its current generation is
not the one that was written but the greatest one among the pairs.
-/

namespace DistributedCompilation

open Reader Decoder

-- ---------------------------------------------------------------------------
-- Restored slots
-- ---------------------------------------------------------------------------

namespace Slot

variable {genTag : GenTag}

/-- `GenerationRegistry::restore` on the slot of the id. -/
def restore (slot : Slot genTag) (pair : Digest256 × Gen genTag) : Slot genTag where
  byContent := slot.byContent.insert pair.1 pair.2
  current := if slot.current.value < pair.2.value then pair.2 else slot.current
  order := if slot.byContent.contains pair.1 then slot.order else slot.order ++ [pair.1]

/-- The recorded pairs in the order in which `encode_registry` writes them. -/
def pairs (slot : Slot genTag) : List (Digest256 × Gen genTag) :=
  slot.order.filterMap fun content => slot.byContent[content]?.map (content, ·)

/-- The current generation is the greatest one recorded. -/
structure AtGreatest (slot : Slot genTag) : Prop where
  above : ∀ (content : Digest256) (generation : Gen genTag),
    slot.byContent[content]? = some generation → generation.value ≤ slot.current.value
  reached : slot.current = {} ∨ ∃ content : Digest256, slot.byContent[content]? = some slot.current

theorem AtGreatest.empty : AtGreatest ({} : Slot genTag) where
  above _ _ h := by simp at h
  reached := .inl rfl

/-- Slots with the same pairs have the same greatest generation. -/
theorem AtGreatest.current_eq {slot slot' : Slot genTag} (h : slot.AtGreatest)
    (h' : slot'.AtGreatest) (same : slot.byContent = slot'.byContent) :
    slot.current = slot'.current := by
  have le : ∀ {s s' : Slot genTag}, s.AtGreatest → s'.AtGreatest → s.byContent = s'.byContent →
      s.current.value ≤ s'.current.value := by
    intro s s' hs hs' heq
    rcases hs.reached with hzero | ⟨content, hcontent⟩
    · rw [hzero]
      exact Nat.zero_le _
    · exact hs'.above content _ (heq ▸ hcontent)
  have hvalue : slot.current.value = slot'.current.value :=
    Nat.le_antisymm (le h h' same) (le h' h same.symm)
  cases hc : slot.current
  cases hc' : slot'.current
  rw [hc, hc'] at hvalue
  exact congrArg Gen.mk hvalue

theorem Listed.restore {slot : Slot genTag} (h : slot.Listed) (pair : Digest256 × Gen genTag) :
    (slot.restore pair).Listed := h.record _ _ _

theorem Listed.foldl_restore {slot : Slot genTag} (h : slot.Listed)
    (new : List (Digest256 × Gen genTag)) : (new.foldl Slot.restore slot).Listed := by
  induction new generalizing slot with
  | nil => exact h
  | cons pair new ih => exact ih (h.restore pair)

/-- New content keeps the current generation the greatest one. -/
theorem AtGreatest.restore {slot : Slot genTag} (h : slot.AtGreatest)
    {pair : Digest256 × Gen genTag} (hnew : slot.byContent[pair.1]? = none) :
    (slot.restore pair).AtGreatest where
  above content generation hg := by
    simp only [Slot.restore, Table.get_insert] at hg ⊢
    split at hg
    next =>
      cases hg
      split <;> omega
    next =>
      have := h.above content generation hg
      split <;> omega
  reached := by
    simp only [Slot.restore, Table.get_insert]
    split
    next => exact .inr ⟨pair.1, by simp⟩
    next =>
      refine h.reached.imp id fun ⟨content, hcontent⟩ => ⟨content, ?_⟩
      rw [if_neg, hcontent]
      rintro rfl
      simp [hnew] at hcontent

/-- What restoring a list of pairs leaves in a slot. -/
theorem restored {slot : Slot genTag} (hgreatest : slot.AtGreatest)
    (new : List (Digest256 × Gen genTag)) (nodup : (new.map (·.1)).Nodup)
    (fresh : ∀ pair ∈ new, slot.byContent[pair.1]? = none) :
    (new.foldl restore slot).AtGreatest ∧
      ∀ (content : Digest256) (generation : Gen genTag),
        (new.foldl restore slot).byContent[content]? = some generation ↔
          (content, generation) ∈ new ∨ slot.byContent[content]? = some generation := by
  induction new generalizing slot with
  | nil => exact ⟨hgreatest, by simp⟩
  | cons pair new ih =>
    rw [List.map_cons, List.nodup_cons] at nodup
    have hpair := fresh pair List.mem_cons_self
    have hrest : ∀ p ∈ new, (slot.restore pair).byContent[p.1]? = none := by
      intro p hp
      have hne : pair.1 ≠ p.1 := fun heq => nodup.1 (heq ▸ List.mem_map_of_mem hp)
      simp only [restore, Table.get_insert, if_neg hne]
      exact fresh p (List.mem_cons_of_mem _ hp)
    obtain ⟨hgreatest', hget⟩ := ih (hgreatest.restore hpair) nodup.2 hrest
    refine ⟨hgreatest', fun content generation => ?_⟩
    rw [List.foldl_cons, hget, List.mem_cons]
    simp only [restore, Table.get_insert]
    by_cases hc : pair.1 = content
    · subst hc
      simp only [if_pos, hpair, Option.some.injEq, reduceCtorEq, or_false]
      constructor
      · rintro (hin | rfl)
        · exact .inr hin
        · exact .inl rfl
      · rintro (heq | hin)
        · exact .inr (congrArg Prod.snd heq).symm
        · exact .inl hin
    · have hne : (content, generation) ≠ pair := fun heq => hc (congrArg Prod.fst heq).symm
      simp only [if_neg hc, hne, false_or]

theorem mem_pairs {slot : Slot genTag} (h : slot.Listed) {content : Digest256}
    {generation : Gen genTag} :
    (content, generation) ∈ slot.pairs ↔ slot.byContent[content]? = some generation := by
  simp only [pairs, List.mem_filterMap, Option.map_eq_some_iff, Prod.mk.injEq]
  constructor
  · rintro ⟨_, -, _, hget, rfl, rfl⟩
    exact hget
  · intro hget
    exact ⟨content, (h.listed content).mpr ⟨generation, hget⟩, generation, hget, rfl, rfl⟩

theorem map_fst_pairs {slot : Slot genTag} (h : slot.Listed) : slot.pairs.map (·.1) = slot.order := by
  unfold pairs
  have hall : ∀ content ∈ slot.order, ∃ generation, slot.byContent[content]? = some generation :=
    fun content hmem => (h.listed content).mp hmem
  revert hall
  induction slot.order with
  | nil => intro _; rfl
  | cons content order ih =>
    intro hall
    obtain ⟨generation, hget⟩ := hall content List.mem_cons_self
    rw [List.filterMap_cons_some (by rw [hget]; rfl), List.map_cons,
      ih fun c hc => hall c (List.mem_cons_of_mem _ hc)]

/-- A slot restored from the pairs of a slot. -/
theorem foldl_restore_pairs {slot : Slot genTag} (h : slot.Listed) :
    (slot.pairs.foldl restore {}).AtGreatest ∧
      (slot.pairs.foldl restore {}).byContent = slot.byContent := by
  obtain ⟨hgreatest, hget⟩ := restored AtGreatest.empty slot.pairs
    (by rw [map_fst_pairs h]; exact h.nodup) fun _ _ => Table.get_empty _
  refine ⟨hgreatest, Table.ext fun content => Option.ext fun generation => ?_⟩
  rw [hget, mem_pairs h]
  simp

/-- There are as many pairs as recorded contents. -/
theorem length_pairs {slot : Slot genTag} (h : slot.Listed) :
    slot.pairs.length = slot.byContent.size := by
  have hperm : slot.pairs.Perm slot.byContent.toList := by
    refine (List.perm_ext_iff_of_nodup ?_ ?_).mpr ?_
    · refine List.Nodup.of_map (·.1) ?_
      rw [map_fst_pairs h]
      exact h.nodup
    · refine List.Nodup.of_map (·.1) ?_
      rw [Std.ExtTreeMap.map_fst_toList_eq_keys]
      exact Std.ExtTreeMap.nodup_keys
    · rintro ⟨content, generation⟩
      rw [mem_pairs h, Std.ExtTreeMap.mem_toList_iff_getElem?_eq_some]
  rw [hperm.length_eq, Std.ExtTreeMap.length_toList]

end Slot

-- ---------------------------------------------------------------------------
-- Restored registries
-- ---------------------------------------------------------------------------

namespace GenerationRegistry

variable {idTag : IdTag} {genTag : GenTag}

/-- Every slot of the registry lists its contents. -/
def Listed (registry : GenerationRegistry idTag genTag) : Prop :=
  ∀ id, (registry.slot id).Listed

theorem Listed.empty : Listed ({} : GenerationRegistry idTag genTag) := by
  intro id
  have hslot : ({} : GenerationRegistry idTag genTag).slot id = {} := by simp [slot]
  rw [hslot]
  exact Slot.Listed.empty

theorem Listed.resolve {registry : GenerationRegistry idTag genTag} (h : registry.Listed)
    (id : Id idTag) (content : Digest256) : (registry.resolve id content).2.Listed := by
  intro i
  rw [slot_resolve]
  split
  next => exact (h id).resolve _ _
  next => exact h i

theorem slot_restore (registry : GenerationRegistry idTag genTag) (id i : Id idTag)
    (pair : Digest256 × Gen genTag) : (registry.restore id pair.1 pair.2).slot i =
      if id = i then (registry.slot id).restore pair else registry.slot i := by
  simp only [restore, slot, Slot.restore, Table.get_insert]
  split <;> rfl

theorem slot_foldl_restore (registry : GenerationRegistry idTag genTag) (id i : Id idTag)
    (new : List (Digest256 × Gen genTag)) :
    (new.foldl (fun registry pair => registry.restore id pair.1 pair.2) registry).slot i =
      if id = i then new.foldl Slot.restore (registry.slot id) else registry.slot i := by
  induction new generalizing registry with
  | nil =>
    split
    next h => rw [h]; rfl
    next => rfl
  | cons pair new ih =>
    rw [List.foldl_cons, ih, slot_restore, slot_restore, if_pos rfl]
    split <;> rfl

/-- The slot of an id is restored from the pairs stored for it. -/
theorem slot_restoreAll_aux (stored : List (Id idTag × List (Digest256 × Gen genTag)))
    (registry : GenerationRegistry idTag genTag) (nodup : (stored.map (·.1)).Nodup) (i : Id idTag) :
    (stored.foldl (fun registry slot =>
      slot.2.foldl (fun registry pair => registry.restore slot.1 pair.1 pair.2) registry)
        registry).slot i =
      ((stored.find? (·.1 = i)).elim [] (·.2)).foldl Slot.restore (registry.slot i) := by
  induction stored generalizing registry with
  | nil => rfl
  | cons entry stored ih =>
    rw [List.map_cons, List.nodup_cons] at nodup
    rw [List.foldl_cons, ih _ nodup.2, slot_foldl_restore, List.find?_cons]
    by_cases hi : entry.1 = i
    · have hnone : stored.find? (·.1 = i) = none := by
        rw [List.find?_eq_none]
        intro other hother
        have hne : other.1 ≠ i := by
          rintro rfl
          exact nodup.1 (hi ▸ List.mem_map_of_mem hother)
        simpa using hne
      rw [hnone, if_pos hi]
      simp [hi]
    · rw [if_neg hi]
      simp [hi]

/-- What the snapshot holds of a registry. -/
def stored (registry : GenerationRegistry idTag genTag) :
    List (Id idTag × List (Digest256 × Gen genTag)) :=
  registry.slots.toList.map fun entry => (entry.1, entry.2.pairs)

theorem slot_restoreAll (registry : GenerationRegistry idTag genTag) (i : Id idTag) :
    (restoreAll registry.stored).slot i = (registry.slot i).pairs.foldl Slot.restore {} := by
  have nodup : (registry.stored.map (·.1)).Nodup := by
    rw [stored, List.map_map]
    exact (Std.ExtTreeMap.map_fst_toList_eq_keys (t := registry.slots)) ▸ Std.ExtTreeMap.nodup_keys
  have hempty : ({} : GenerationRegistry idTag genTag).slot i = {} := by simp [slot]
  rw [restoreAll, slot_restoreAll_aux _ _ nodup, hempty, slot]
  congr 1
  cases hget : registry.slots[i]? with
  | none =>
    have hnone : registry.stored.find? (·.1 = i) = none := by
      rw [List.find?_eq_none]
      intro entry hentry
      obtain ⟨⟨id, slot⟩, hmem, rfl⟩ := List.mem_map.mp hentry
      rw [Std.ExtTreeMap.mem_toList_iff_getElem?_eq_some] at hmem
      have hne : id ≠ i := by
        rintro rfl
        simp [hget] at hmem
      simpa using hne
    rw [hnone]
    rfl
  | some slot =>
    have hmem : (i, slot.pairs) ∈ registry.stored :=
      List.mem_map.mpr ⟨(i, slot), Std.ExtTreeMap.mem_toList_iff_getElem?_eq_some.mpr hget, rfl⟩
    cases hfind : registry.stored.find? (·.1 = i) with
    | none => simpa using List.find?_eq_none.mp hfind _ hmem
    | some entry =>
      have hid : entry.1 = i := by simpa using List.find?_some hfind
      have heq := List.inj_on_of_nodup_map nodup (List.mem_of_find?_eq_some hfind) hmem hid
      rw [heq]
      rfl

/-- A registry with the pairs of another one and the greatest of their
generations as the current ones. -/
def Restores (saved registry : GenerationRegistry idTag genTag) : Prop :=
  ∀ id, (registry.slot id).byContent = (saved.slot id).byContent ∧ (registry.slot id).AtGreatest

theorem Listed.restores {registry : GenerationRegistry idTag genTag} (h : registry.Listed) :
    registry.Restores (restoreAll registry.stored) := by
  intro id
  rw [slot_restoreAll]
  exact (Slot.foldl_restore_pairs (h id)).symm

theorem listed_restoreAll (registry : GenerationRegistry idTag genTag) :
    (restoreAll registry.stored).Listed := by
  intro id
  rw [slot_restoreAll]
  exact Slot.Listed.empty.foldl_restore _

end GenerationRegistry

-- ---------------------------------------------------------------------------
-- Reading a registry back
-- ---------------------------------------------------------------------------

section Read

variable {idTag : IdTag} {genTag : GenTag} {β : Type} {rest : Bytes}

theorem parse_readHandle (n : Nat) (h : (Field.handle n).fits = true) (f : UInt64 → Reader β) :
    (readU64 >>= f).parse ((Field.handle n).bytes ++ rest) = (f (UInt64.ofNat n)).parse rest :=
  parse_bind_of_parse (parse_of_run (run_readU64_handle n h))

theorem toNat_ofNat_of_fits {n : Nat} (h : (Field.handle n).fits = true) :
    (UInt64.ofNat n).toNat = n := by
  have hlt : n < 2 ^ 64 := by simpa [Field.fits] using h
  rw [UInt64.toNat_ofNat', Nat.mod_eq_of_lt hlt]

theorem flatMap_encodeContent (slot : Slot genTag) :
    slot.order.flatMap (encodeContent slot) =
      slot.pairs.flatMap fun pair => [.digest pair.1, .gen pair.2] := by
  unfold Slot.pairs
  induction slot.order with
  | nil => rfl
  | cons content order ih =>
    rw [List.flatMap_cons, ih, List.filterMap_cons, encodeContent]
    cases slot.byContent[content]? <;> rfl

theorem parse_decodeContent (pair : Digest256 × Gen genTag)
    (h : (Field.gen pair.2).fits = true) :
    decodeContent.parse (Record.bytes [.digest pair.1, .gen pair.2] ++ rest) = some (pair, rest) := by
  simp only [decodeContent, Record.bytes_cons, Record.bytes_nil, List.append_assoc,
    List.nil_append, parse_readDigest, parse_readGen, h, parse_pure]

/-- What `decode_registry` makes of one written slot. -/
def rereadSlot (entry : Id idTag × Slot genTag) : Option (Id idTag × List (Digest256 × Gen genTag)) :=
  if entry.1.isZero = false ∧ entry.2.byContent.size ≤ kMaxStateRecords then
    some (entry.1, entry.2.pairs)
  else none

theorem parse_decodeSlot (name : String) (entry : Id idTag × Slot genTag) (hl : entry.2.Listed)
    (h : (encodeSlot entry).eachFits = true) :
    (decodeSlot name).parse ((encodeSlot entry).bytes ++ rest) =
      (rereadSlot entry).map (·, rest) := by
  simp only [encodeSlot, Record.join_cons, Record.join_nil, Record.eachFits_append,
    Record.eachFits_cons, Record.eachFits_nil, Bool.and_true, Bool.and_eq_true,
    flatMap_encodeContent, Record.eachFits_flatMap, List.all_eq_true] at h
  obtain ⟨⟨hid, hcurrent, hcount⟩, hpairs⟩ := h
  have hnat := toNat_ofNat_of_fits hid
  have hzero : UInt64.ofNat entry.1.value = 0 ↔ entry.1.isZero = true := by
    rw [← UInt64.toNat_inj, hnat, Id.isZero, beq_iff_eq]
    rfl
  have hread : (replicate decodeContent entry.2.byContent.size).parse
      (Record.bytes (entry.2.pairs.flatMap fun pair => [.digest pair.1, .gen pair.2]) ++ rest) =
        some (entry.2.pairs, rest) := by
    rw [← Slot.length_pairs hl, Record.bytes_flatMap]
    exact parse_of_run (run_replicate_flatMap _ rest fun pair hpair rest =>
      run_of_parse (parse_decodeContent pair (hpairs pair hpair).2))
  simp only [encodeSlot, decodeSlot, Record.join_cons, Record.join_nil, Record.bytes_append,
    Record.bytes_cons, Record.bytes_nil, List.append_assoc, List.append_nil, flatMap_encodeContent,
    parse_readHandle _ hid, hzero, hnat, rereadSlot, parse_ite,
    parse_refused, parse_readGen _ hcurrent, parse_readHandle _ hcount,
    toNat_ofNat_of_fits hcount, parse_bind_of_parse hread, parse_pure]
  cases entry.1.isZero with
  | true => simp
  | false =>
    by_cases hsize : kMaxStateRecords < entry.2.byContent.size
    · simp [hsize, Nat.not_le.mpr hsize]
    · simp [hsize, Nat.not_lt.mp hsize]

theorem eq_map_of_mapM_rereadSlot {entries : List (Id idTag × Slot genTag)}
    {read : List (Id idTag × List (Digest256 × Gen genTag))}
    (h : entries.mapM rereadSlot = some read) :
    read = entries.map fun entry => (entry.1, entry.2.pairs) := by
  induction entries generalizing read with
  | nil => exact (Option.some.inj h).symm
  | cons entry entries ih =>
    rw [List.mapM_cons] at h
    obtain ⟨one, hone, h⟩ := Option.bind_eq_some_iff.mp h
    obtain ⟨more, hmore, h⟩ := Option.bind_eq_some_iff.mp h
    obtain rfl := Option.some.inj h
    rw [List.map_cons, ← ih hmore]
    unfold rereadSlot at hone
    split at hone
    · rw [← Option.some.inj hone]
    · cases hone

/-- A written registry that is accepted is read back restored. -/
theorem parse_of_decodeRegistry {name : String} {registry : GenerationRegistry idTag genTag}
    {f : GenerationRegistry idTag genTag → Reader β} {out : β × Bytes} (hl : registry.Listed)
    (hfits : (encodeRegistry registry).eachFits = true)
    (h : (decodeRegistry name >>= f).parse ((encodeRegistry registry).bytes ++ rest) = some out) :
    (f (restoreAll registry.stored)).parse rest = some out := by
  simp only [encodeRegistry, Record.join_cons, Record.join_nil, Record.eachFits_append,
    Record.eachFits_cons, Record.eachFits_nil, Bool.and_true, Bool.and_eq_true,
    Record.eachFits_flatMap, List.all_eq_true] at hfits
  obtain ⟨⟨hslots, hentries⟩, heach⟩ := hfits
  have hlisted : ∀ entry ∈ registry.slots.toList, entry.2.Listed := by
    intro entry hentry
    have hget := Std.ExtTreeMap.mem_toList_iff_getElem?_eq_some.mp hentry
    have hslot : registry.slot entry.1 = entry.2 := by
      rw [GenerationRegistry.slot, hget, Option.getD_some]
    exact hslot ▸ hl entry.1
  have hread : (replicate (decodeSlot name) registry.slots.size).parse
      (Record.bytes (registry.slots.toList.flatMap encodeSlot) ++ rest) =
        (registry.slots.toList.mapM rereadSlot).map (·, rest) := by
    rw [← Std.ExtTreeMap.length_toList, Record.bytes_flatMap]
    exact parse_replicate_mapM _ rest fun entry hentry rest =>
      parse_decodeSlot name entry (hlisted entry hentry) (heach entry hentry)
  rw [parse_bind] at h
  simp only [encodeRegistry, decodeRegistry, Record.join_cons, Record.join_nil,
    Record.bytes_append, Record.bytes_cons, Record.bytes_nil, List.append_assoc, List.append_nil,
    parse_readHandle _ hslots, parse_readHandle _ hentries,
    toNat_ofNat_of_fits hslots, parse_ite, parse_refused, parse_bind_of_map hread] at h
  split at h
  · cases h
  · obtain ⟨⟨read, rest'⟩, hparse, h⟩ := Option.bind_eq_some_iff.mp h
    obtain ⟨slots, hmap, hpure⟩ := Option.bind_eq_some_iff.mp hparse
    cases hpure
    rw [eq_map_of_mapM_rereadSlot hmap] at h
    exact h

-- ---------------------------------------------------------------------------
-- Reading a snapshot back
-- ---------------------------------------------------------------------------

theorem parse_corrupt_bind {α : Type} (what : String) (d : Reader α) (f : α → Reader β)
    (input : Bytes) : (corrupt what d >>= f).parse input = (d >>= f).parse input := by
  rw [parse_bind, parse_bind, corrupt, parse_mapError]

theorem parse_staged_bind {α : Type} (stage : String) (d : Reader α) (f : α → Reader β)
    (input : Bytes) : (staged stage d >>= f).parse input = (d >>= f).parse input := by
  rw [parse_bind, parse_bind, staged, parse_mapError]

theorem parse_readCounter (n : Nat) (h : (Field.handle n).fits = true) (f : Nat → Reader β) :
    (readCounter >>= f).parse ((Field.handle n).bytes ++ rest) = (f n).parse rest := by
  refine parse_bind_of_parse ?_
  rw [readCounter, parse_readHandle n h, toNat_ofNat_of_fits h, parse_pure]

theorem parse_decodeHeader (header : StateHeader) (h : (encodeHeader header).eachFits = true) :
    decodeHeader.parse ((encodeHeader header).bytes ++ rest) = some (header, rest) := by
  simp only [encodeHeader, Record.eachFits_cons, Bool.and_eq_true] at h
  simp only [encodeHeader, decodeHeader, Record.bytes_cons, Record.bytes_nil, List.append_assoc,
    List.nil_append, parse_corrupt_bind, parse_readDomain, parse_readU16, parse_readGen,
    parse_readU64, parse_readCounter, parse_readI64, h, if_true, parse_pure]

end Read

/-- The seven registries of a state. -/
def State.registries (s : State) : SourceRegistry × IRRegistry × DependencyRegistry ×
    ToolchainRegistry × TargetRegistry × SpecializationRegistry × PolicyRegistry :=
  (s.sources, s.irs, s.dependencies, s.toolchains, s.targets, s.specializations, s.policies)

/-- All registries of the state list their contents. -/
structure State.Listed (s : State) : Prop where
  sources : s.sources.Listed
  irs : s.irs.Listed
  dependencies : s.dependencies.Listed
  toolchains : s.toolchains.Listed
  targets : s.targets.Listed
  specializations : s.specializations.Listed
  policies : s.policies.Listed

/-- All registries of the second state are restored from those of the first. -/
structure State.Restores (saved s : State) : Prop where
  sources : saved.sources.Restores s.sources
  irs : saved.irs.Restores s.irs
  dependencies : saved.dependencies.Restores s.dependencies
  toolchains : saved.toolchains.Restores s.toolchains
  targets : saved.targets.Restores s.targets
  specializations : saved.specializations.Restores s.specializations
  policies : saved.policies.Restores s.policies

variable [HashFunction]

/-- A snapshot that is accepted brings back restored registries. -/
theorem restores_of_decodeState {saved s : State} (hl : saved.Listed)
    (hfits : (encodeState saved).eachFits = true)
    (h : decodeState (encodeState saved).bytes = .ok s) : saved.Restores s ∧ s.Listed := by
  have hread : ∃ rest, readState.parse (encodeState saved).bytes = some (s, rest) := by
    unfold decodeState at h
    split at h
    · cases h
    next state rest hrun =>
      split at h
      · cases h
        exact ⟨rest, parse_of_run hrun⟩
      · cases h
  obtain ⟨rest, hread⟩ := hread
  simp only [encodeState, Record.join_cons, Record.join_nil, Record.eachFits_append,
    Bool.and_eq_true] at hfits
  obtain ⟨hheader, hsources, hirs, hdependencies, htoolchains, htargets, hspecializations,
    hpolicies, -⟩ := hfits
  simp only [encodeState, Record.join_cons, Record.bytes_append] at hread
  rw [readState, parse_bind_of_parse (parse_decodeHeader _ hheader), parse_staged_bind] at hread
  have hread := parse_of_decodeRegistry hl.sources hsources hread
  rw [parse_staged_bind] at hread
  have hread := parse_of_decodeRegistry hl.irs hirs hread
  rw [parse_staged_bind] at hread
  have hread := parse_of_decodeRegistry hl.dependencies hdependencies hread
  rw [parse_staged_bind] at hread
  have hread := parse_of_decodeRegistry hl.toolchains htoolchains hread
  rw [parse_staged_bind] at hread
  have hread := parse_of_decodeRegistry hl.targets htargets hread
  rw [parse_staged_bind] at hread
  have hread := parse_of_decodeRegistry hl.specializations hspecializations hread
  rw [parse_staged_bind] at hread
  have hread := parse_of_decodeRegistry hl.policies hpolicies hread
  -- the tables that follow do not touch the registries
  iterate 14
    rw [parse_bind] at hread
    obtain ⟨_, -, hread⟩ := Option.bind_eq_some_iff.mp hread
  cases hread
  exact ⟨⟨hl.sources.restores, hl.irs.restores, hl.dependencies.restores, hl.toolchains.restores,
    hl.targets.restores, hl.specializations.restores, hl.policies.restores⟩,
    ⟨GenerationRegistry.listed_restoreAll _, GenerationRegistry.listed_restoreAll _, GenerationRegistry.listed_restoreAll _,
    GenerationRegistry.listed_restoreAll _, GenerationRegistry.listed_restoreAll _,
    GenerationRegistry.listed_restoreAll _, GenerationRegistry.listed_restoreAll _⟩⟩

end DistributedCompilation
