import DistributedCompilation.Runtime.Registry

/-!
# Distributed Compilation — what generations tell apart

The law of the generation registry over any sequence of `resolve` calls. New
content is numbered from the current generation, and resolving known content
moves the current generation back, so the law holds exactly along the runs that
meet new content only when the current generation is the greatest one issued.
-/

namespace DistributedCompilation

namespace Slot

variable {genTag : GenTag}

-- ---------------------------------------------------------------------------
-- Slots
-- ---------------------------------------------------------------------------

/-- A slot whose order lists every recorded content once. -/
structure Listed (slot : Slot genTag) : Prop where
  listed : ∀ content : Digest256, content ∈ slot.order ↔
    ∃ generation, slot.byContent[content]? = some generation
  nodup : slot.order.Nodup

theorem Listed.empty : Listed ({} : Slot genTag) where
  listed _ := by simp
  nodup := List.nodup_nil

/-- A slot whose contents are told apart by generations issued for it. -/
structure Numbered (slot : Slot genTag) (issued : List (Gen genTag)) : Prop where
  listed : ∀ content : Digest256, content ∈ slot.order ↔
    ∃ generation, slot.byContent[content]? = some generation
  nodup : slot.order.Nodup
  recorded : ∀ (content : Digest256) (generation : Gen genTag),
    slot.byContent[content]? = some generation → generation ∈ issued
  distinct : ∀ (content content' : Digest256) (generation : Gen genTag),
    slot.byContent[content]? = some generation → slot.byContent[content']? = some generation →
    content = content'
  positive : ∀ generation ∈ issued, 0 < generation.value

theorem Numbered.empty : Numbered ({} : Slot genTag) [] where
  listed _ := by simp
  nodup := List.nodup_nil
  recorded _ _ h := by simp at h
  distinct _ _ _ h := by simp at h
  positive := by simp

theorem get_foldl_erase {α : Type} (gone : List Digest256) (t : Table Digest256 α)
    (content : Digest256) :
    (gone.foldl (fun m d => m.erase d) t)[content]? = if content ∈ gone then none else t[content]? := by
  induction gone generalizing t with
  | nil => simp
  | cons d gone ih =>
    rw [List.foldl_cons, ih, Table.get_erase]
    by_cases hd : d = content
    · subst hd
      simp
    · simp [hd, Ne.symm hd]

/-- Eviction keeps the contents it does not drop. -/
theorem get_evict {limit : Nat} {slot : Slot genTag} {content : Digest256}
    {generation : Gen genTag} :
    (evict limit slot).byContent[content]? = some generation ↔
      content ∉ slot.order.take (slot.order.length - limit) ∧
        slot.byContent[content]? = some generation := by
  rw [evict, get_foldl_erase]
  by_cases h : content ∈ slot.order.take (slot.order.length - limit) <;> simp [h]

theorem Listed.evict {slot : Slot genTag} (h : slot.Listed) (limit : Nat) :
    (evict limit slot).Listed where
  listed content := by
    have hparts := List.take_append_drop (slot.order.length - limit) slot.order
    have happ := h.listed content
    have hapart : content ∈ slot.order.drop (slot.order.length - limit) →
        content ∉ slot.order.take (slot.order.length - limit) := by
      have hnodup := h.nodup
      rw [← hparts] at hnodup
      exact fun hd ht => List.disjoint_of_nodup_append hnodup ht hd
    rw [← hparts, List.mem_append] at happ
    constructor
    · intro hd
      obtain ⟨generation, hg⟩ := happ.mp (.inr hd)
      exact ⟨generation, get_evict.mpr ⟨hapart hd, hg⟩⟩
    · rintro ⟨generation, hg⟩
      obtain ⟨hgone, hg⟩ := get_evict.mp hg
      exact (happ.mpr ⟨generation, hg⟩).resolve_left hgone
  nodup := h.nodup.sublist (List.drop_sublist _ _)

/-- Recording a pair puts its content at the end of the order, once. -/
theorem Listed.record {slot : Slot genTag} (h : slot.Listed) (content : Digest256)
    (generation current : Gen genTag) : Listed {
      byContent := slot.byContent.insert content generation
      current
      order := if slot.byContent.contains content then slot.order else slot.order ++ [content] } where
  listed c := by
    simp only [Table.get_insert]
    by_cases hin : slot.byContent.contains content = true
    · rw [if_pos hin, h.listed c]
      obtain ⟨g, hg⟩ := Table.contains_iff.mp hin
      by_cases hc : content = c
      · subst hc
        simp [hg]
      · simp [hc]
    · rw [if_neg hin, List.mem_append, List.mem_singleton, h.listed c]
      by_cases hc : content = c
      · simp [hc]
      · simp [hc, Ne.symm hc]
  nodup := by
    split
    next => exact h.nodup
    next hin =>
      have habsent : content ∉ slot.order := fun hmem =>
        hin (Table.contains_iff.mpr ((h.listed content).mp hmem))
      refine List.nodup_append.mpr ⟨h.nodup, List.nodup_singleton _, ?_⟩
      rintro a ha b hb rfl
      exact habsent (List.mem_singleton.mp hb ▸ ha)

theorem Numbered.evict {slot : Slot genTag} {issued : List (Gen genTag)}
    (h : slot.Numbered issued) (limit : Nat) : (evict limit slot).Numbered issued where
  listed := (Listed.evict ⟨h.listed, h.nodup⟩ limit).listed
  nodup := (Listed.evict ⟨h.listed, h.nodup⟩ limit).nodup
  recorded content generation hc := h.recorded content generation (get_evict.mp hc).2
  distinct content content' generation hc hc' :=
    h.distinct content content' generation (get_evict.mp hc).2 (get_evict.mp hc').2
  positive := h.positive

/-- The generation new content gets. -/
def fresh (slot : Slot genTag) : Gen genTag :=
  if slot.current.isZero then ⟨1⟩ else slot.current.next

theorem fresh_value (slot : Slot genTag) : slot.fresh.value = slot.current.value + 1 := by
  unfold fresh
  split
  next h =>
    have : slot.current.value = 0 := by simpa [Gen.isZero] using h
    rw [this]
  next => rfl

theorem resolve_known {limit : Nat} {slot : Slot genTag} {content : Digest256}
    {generation : Gen genTag} (h : slot.byContent[content]? = some generation) :
    resolve limit content slot = (generation, { slot with current := generation }) := by
  rw [resolve, h]

theorem resolve_new {limit : Nat} {slot : Slot genTag} {content : Digest256}
    (h : slot.byContent[content]? = none) :
    resolve limit content slot = (slot.fresh, evict limit {
      byContent := slot.byContent.insert content slot.fresh
      current := slot.fresh
      order := slot.order ++ [content] }) := by
  rw [resolve, h]
  rfl

theorem Listed.resolve {slot : Slot genTag} (h : slot.Listed) (limit : Nat) (content : Digest256) :
    (resolve limit content slot).2.Listed := by
  cases hc : slot.byContent[content]? with
  | some generation =>
    rw [resolve_known hc]
    exact ⟨h.listed, h.nodup⟩
  | none =>
    rw [resolve_new hc]
    have hrecord := h.record content slot.fresh slot.fresh
    rw [if_neg (by rw [Table.contains_eq_false.mpr hc]; decide)] at hrecord
    exact hrecord.evict limit

/-- New content met while the current generation is the greatest one issued. -/
def Forward (slot : Slot genTag) (issued : List (Gen genTag)) (content : Digest256) : Prop :=
  slot.byContent[content]? = none → ∀ generation ∈ issued, generation.value ≤ slot.current.value

/-- A forward call keeps contents told apart. -/
theorem Numbered.resolve {slot : Slot genTag} {issued : List (Gen genTag)}
    (h : slot.Numbered issued) {content : Digest256} (forward : slot.Forward issued content)
    (limit : Nat) :
    (resolve limit content slot).2.Numbered
      (issued ++ [(resolve limit content slot).1]) := by
  cases hc : slot.byContent[content]? with
  | some generation =>
    rw [resolve_known hc]
    exact {
      listed := h.listed
      nodup := h.nodup
      recorded := fun c g hg => List.mem_append_left _ (h.recorded c g hg)
      distinct := h.distinct
      positive := fun g hg => by
        rcases List.mem_append.mp hg with hg | hg
        · exact h.positive g hg
        · rw [List.mem_singleton.mp hg]
          exact h.positive _ (h.recorded content generation hc) }
  | none =>
    rw [resolve_new hc]
    refine Numbered.evict ?_ limit
    have hlookup : ∀ (c : Digest256) (g : Gen genTag), (slot.byContent.insert content slot.fresh)[c]? = some g →
        (c = content ∧ g = slot.fresh) ∨ slot.byContent[c]? = some g := by
      intro c g hg
      rw [Table.get_insert] at hg
      split at hg
      next hcc => exact .inl ⟨hcc.symm, (Option.some.inj hg).symm⟩
      next => exact .inr hg
    -- the fresh generation is above everything recorded so far
    have hnew : ∀ c : Digest256, slot.byContent[c]? ≠ some slot.fresh := by
      intro c hg
      have := forward hc _ (h.recorded c _ hg)
      rw [fresh_value] at this
      omega
    have hlisted := Listed.record ⟨h.listed, h.nodup⟩ content slot.fresh slot.fresh
    rw [if_neg (by rw [Table.contains_eq_false.mpr hc]; decide)] at hlisted
    constructor
    case listed => exact hlisted.listed
    case nodup => exact hlisted.nodup
    case recorded =>
      intro c g hg
      rcases hlookup c g hg with ⟨-, rfl⟩ | hg
      · exact List.mem_append_right _ (List.mem_singleton_self _)
      · exact List.mem_append_left _ (h.recorded c g hg)
    case distinct =>
      intro c c' g hg hg'
      rcases hlookup c g hg with ⟨hcc, rfl⟩ | hold <;>
        rcases hlookup c' _ hg' with ⟨hcc', hf⟩ | hold'
      · rw [hcc, hcc']
      · exact absurd hold' (hnew c')
      · exact absurd (hf ▸ hold) (hnew c)
      · exact h.distinct c c' g hold hold'
    case positive =>
      intro g hg
      rcases List.mem_append.mp hg with hg | hg
      · exact h.positive g hg
      · rw [List.mem_singleton.mp hg, fresh_value]
        omega

/-- The content a call resolves is known afterwards under the generation the
call returned, which is then the current one. -/
theorem get_resolve {slot : Slot genTag} {issued : List (Gen genTag)} (h : slot.Numbered issued)
    {limit : Nat} (hlimit : 1 ≤ limit) (content : Digest256) :
    (resolve limit content slot).2.byContent[content]? = some (resolve limit content slot).1 ∧
      (resolve limit content slot).2.current = (resolve limit content slot).1 := by
  cases hc : slot.byContent[content]? with
  | some generation =>
    rw [resolve_known hc]
    exact ⟨hc, rfl⟩
  | none =>
    rw [resolve_new hc]
    refine ⟨get_evict.mpr ⟨fun hmem => ?_, ?_⟩, rfl⟩
    · -- what is dropped was there before
      have habsent : content ∉ slot.order := fun hmem => by
        obtain ⟨g, hg⟩ := (h.listed content).mp hmem
        simp [hc] at hg
      rw [List.take_append_of_le_length (by simp; omega)] at hmem
      exact habsent (List.mem_of_mem_take hmem)
    · simp

/-- Told apart, the current generation names one content. -/
theorem currentContent_of_numbered {slot : Slot genTag} {issued : List (Gen genTag)}
    (h : slot.Numbered issued) {content : Digest256}
    (hc : slot.byContent[content]? = some slot.current) :
    slot.currentContent = some (slot.current, content) := by
  have hpos : slot.current.isZero = false := by
    have := h.positive _ (h.recorded content _ hc)
    simp only [Gen.isZero, beq_eq_false_iff_ne]
    omega
  have hmem : (content, slot.current) ∈ slot.byContent.toList :=
    Std.ExtTreeMap.mem_toList_iff_getElem?_eq_some.mpr hc
  simp only [currentContent, hpos, Bool.false_eq_true, if_false]
  cases hfind : slot.byContent.toList.find? (·.2 == slot.current) with
  | none => simpa using List.find?_eq_none.mp hfind _ hmem
  | some entry =>
    have hentry := Std.ExtTreeMap.mem_toList_iff_getElem?_eq_some.mp (List.mem_of_find?_eq_some hfind)
    have hgen : entry.2 = slot.current := by simpa using List.find?_some hfind
    rw [hgen] at hentry
    rw [Option.map_some, h.distinct _ _ _ hentry hc]

end Slot

-- ---------------------------------------------------------------------------
-- Registries
-- ---------------------------------------------------------------------------

namespace GenerationRegistry

variable {idTag : IdTag} {genTag : GenTag}

/-- A registry after a sequence of calls, with what each call returned. -/
def resolveAll (genTag : GenTag) (limit : Nat) (calls : List (Id idTag × Digest256)) :
    GenerationRegistry idTag genTag × List (Id idTag × Gen genTag) :=
  calls.foldl (fun (registry, log) (id, content) =>
    ((registry.resolve id content).2, log ++ [(id, (registry.resolve id content).1)]))
    ({ historyLimit := limit }, [])

/-- The generations a log issues for an id. -/
def issued (log : List (Id idTag × Gen genTag)) (id : Id idTag) : List (Gen genTag) :=
  (log.filter (·.1 = id)).map (·.2)

/-- What one call has to satisfy, after a run that issued the generations of
`log`. -/
structure LawfulCall (registry : GenerationRegistry idTag genTag)
    (log : List (Id idTag × Gen genTag)) (id : Id idTag) (content : Digest256) : Prop where
  /-- known contents have pairwise distinct generations -/
  distinct : ∀ (i : Id idTag) (c c' : Digest256) (generation : Gen genTag),
    (registry.resolve id content).2.lookup i c = some generation →
    (registry.resolve id content).2.lookup i c' = some generation → c = c'
  /-- known content resolves to its recorded generation -/
  known : ∀ generation, registry.lookup id content = some generation →
    (registry.resolve id content).1 = generation
  /-- new content is numbered above everything issued for the id -/
  fresh : registry.lookup id content = none →
    ∀ generation ∈ issued log id, generation.value < (registry.resolve id content).1.value
  /-- the content last resolved is the current one -/
  current : (registry.resolve id content).2.current id =
    some ((registry.resolve id content).1, content)
  isCurrent : ∀ c, (registry.resolve id content).2.isCurrent id c = true ↔ c = content
  /-- and other ids keep theirs -/
  others : ∀ i, i ≠ id → (registry.resolve id content).2.current i = registry.current i

/-- The registry law along a sequence of calls. -/
def Lawful (genTag : GenTag) (limit : Nat) (calls : List (Id idTag × Digest256)) : Prop :=
  ∀ before id content after, calls = before ++ (id, content) :: after →
    LawfulCall (resolveAll genTag limit before).1 (resolveAll genTag limit before).2 id content

/-- New content is met only while the current generation of its id is the
greatest one issued for it. -/
def Forward (genTag : GenTag) (limit : Nat) (calls : List (Id idTag × Digest256)) : Prop :=
  ∀ before id content after, calls = before ++ (id, content) :: after →
    (resolveAll genTag limit before).1.lookup id content = none →
    ∀ generation ∈ issued (resolveAll genTag limit before).2 id,
      generation.value ≤ ((resolveAll genTag limit before).1.slot id).current.value

theorem resolveAll_concat (limit : Nat) (calls : List (Id idTag × Digest256)) (id : Id idTag)
    (content : Digest256) :
    resolveAll genTag limit (calls ++ [(id, content)]) =
      (((resolveAll genTag limit calls).1.resolve id content).2,
        (resolveAll genTag limit calls).2 ++
          [(id, ((resolveAll genTag limit calls).1.resolve id content).1)]) := by
  simp only [resolveAll, List.foldl_append, List.foldl_cons, List.foldl_nil]

theorem lookup_eq (registry : GenerationRegistry idTag genTag) (id : Id idTag)
    (content : Digest256) : registry.lookup id content = (registry.slot id).byContent[content]? := by
  simp only [lookup, slot]
  cases registry.slots[id]? <;> simp

theorem current_eq (registry : GenerationRegistry idTag genTag) (id : Id idTag) :
    registry.current id = (registry.slot id).currentContent := by
  simp only [current, slot]
  cases registry.slots[id]? with
  | none => simp [Slot.currentContent, Gen.isZero]
  | some => rfl

theorem slot_resolve (registry : GenerationRegistry idTag genTag) (id i : Id idTag)
    (content : Digest256) : (registry.resolve id content).2.slot i =
      if id = i then (Slot.resolve registry.historyLimit content (registry.slot id)).2
      else registry.slot i := by
  simp only [resolve, slot, Table.get_insert]
  split <;> rfl

/-- Every slot is told apart by what the log issued for it. -/
def Numbered (registry : GenerationRegistry idTag genTag) (log : List (Id idTag × Gen genTag)) :
    Prop := ∀ id, (registry.slot id).Numbered (issued log id)

theorem issued_concat (log : List (Id idTag × Gen genTag)) (id i : Id idTag)
    (generation : Gen genTag) : issued (log ++ [(id, generation)]) i =
      if id = i then issued log i ++ [generation] else issued log i := by
  simp only [issued, List.filter_append, List.map_append]
  split
  next h => simp [h]
  next h => simp [h]

theorem Numbered.resolve {registry : GenerationRegistry idTag genTag}
    {log : List (Id idTag × Gen genTag)} (h : registry.Numbered log) {id : Id idTag}
    {content : Digest256} (forward : (registry.slot id).Forward (issued log id) content) :
    (registry.resolve id content).2.Numbered (log ++ [(id, (registry.resolve id content).1)]) := by
  intro i
  rw [slot_resolve, issued_concat]
  split
  next hid =>
    subst hid
    exact (h id).resolve forward registry.historyLimit
  next => exact h i

/-- A forward call on a registry told apart is lawful. -/
theorem Numbered.lawfulCall {registry : GenerationRegistry idTag genTag}
    {log : List (Id idTag × Gen genTag)} (h : registry.Numbered log)
    (hlimit : 1 ≤ registry.historyLimit) {id : Id idTag} {content : Digest256}
    (forward : (registry.slot id).Forward (issued log id) content) :
    LawfulCall registry log id content := by
  have hafter := h.resolve forward
  obtain ⟨hget, hcurrent⟩ := Slot.get_resolve (h id) hlimit content
  have hslot := slot_resolve registry id id content
  rw [if_pos rfl] at hslot
  have hnow : (registry.resolve id content).2.current id =
      some ((registry.resolve id content).1, content) := by
    rw [current_eq, hslot]
    have hnumbered := hslot ▸ hafter id
    have hcontent := Slot.currentContent_of_numbered hnumbered (hget.trans (by rw [hcurrent]))
    rwa [hcurrent] at hcontent
  constructor
  case distinct =>
    intro i c c' generation hc hc'
    rw [lookup_eq] at hc hc'
    exact (hafter i).distinct c c' generation hc hc'
  case known =>
    intro generation hc
    rw [lookup_eq] at hc
    show (Slot.resolve _ content _).1 = _
    rw [Slot.resolve_known hc]
  case fresh =>
    intro hc generation hg
    rw [lookup_eq] at hc
    have := forward hc generation hg
    show _ < (Slot.resolve _ content _).1.value
    rw [Slot.resolve_new hc, Slot.fresh_value]
    omega
  case current => exact hnow
  case isCurrent =>
    intro c
    simp only [GenerationRegistry.isCurrent, hnow, Option.any_some, beq_iff_eq]
    exact eq_comm
  case others =>
    intro i hi
    rw [current_eq, current_eq, slot_resolve, if_neg (Ne.symm hi)]

/-- A run of forward calls ends told apart. -/
theorem Numbered.resolveAll {limit : Nat} {calls : List (Id idTag × Digest256)}
    (forward : Forward genTag limit calls) :
    (GenerationRegistry.resolveAll genTag limit calls).1.Numbered
        (GenerationRegistry.resolveAll genTag limit calls).2 ∧
      (GenerationRegistry.resolveAll genTag limit calls).1.historyLimit = limit := by
  induction calls using List.reverseRecOn with
  | nil =>
    refine ⟨fun id => ?_, rfl⟩
    have hslot : GenerationRegistry.slot (GenerationRegistry.resolveAll genTag limit []).1
        id = {} := by simp [GenerationRegistry.resolveAll, slot]
    rw [hslot]
    exact Slot.Numbered.empty
  | append_singleton calls call ih =>
    obtain ⟨id, content⟩ := call
    obtain ⟨hnumbered, hlimit⟩ := ih fun before i c after hsplit =>
      forward before i c (after ++ [(id, content)]) (by simp [hsplit])
    rw [resolveAll_concat]
    refine ⟨hnumbered.resolve fun hc => ?_, hlimit⟩
    exact forward calls id content [] rfl (by rw [lookup_eq, hc])

/-- Going back to the first of two contents before a third one is met. -/
def revisit : List (ToolchainId × Digest256) :=
  [(⟨1⟩, .filled 1), (⟨1⟩, .filled 2), (⟨1⟩, .filled 1), (⟨1⟩, .filled 3)]

end GenerationRegistry

end DistributedCompilation
