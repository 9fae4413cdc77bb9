import DistributedCompilation.Safety.StoredBlobs

/-!
# Distributed Compilation — the bookkeeping of the blob cache

Three structures hold the cache of blobs: the map, the order of insertion and the
number of bytes. They stay in step through every `store_blob` and `load_blob`,
whatever the files are that the calls find and whichever writes fail, and the
number of bytes is never smaller than what an eviction takes from it.
-/

namespace DistributedCompilation

open Program (Keeps)

/-- What the eviction loop subtracts, each time with what it subtracts it from. -/
def evictedSizes : List Digest256 → Table Digest256 Bytes → Nat → List (Nat × Nat)
  | [], _, _ => []
  | victim :: order, cache, total =>
    if blobCacheLimit < total then
      match cache[victim]? with
      | none => evictedSizes order cache total
      | some bytes => (total, bytes.length) :: evictedSizes order (cache.erase victim) (total - bytes.length)
    else []

/-- No subtraction of the loop wraps. -/
theorem evictedSizes_le {order : List Digest256} {cache : Table Digest256 Bytes} {total : Nat}
    (exact : Fifo.Exact List.length order cache total) : ∀ size ∈ evictedSizes order cache total, size.2 ≤ size.1 := by
  induction order generalizing cache total with
  | nil => exact fun _ h => nomatch h
  | cons victim order ih =>
    obtain ⟨bytes, hbytes⟩ := (exact.listed victim).mp (List.mem_cons_self ..)
    unfold evictedSizes
    rw [hbytes]
    split
    · intro size hsize
      rcases List.mem_cons.mp hsize with rfl | hrest
      · have hweight : Fifo.weightOf List.length cache victim = bytes.length := by
          unfold Fifo.weightOf
          rw [hbytes]
          rfl
        rw [exact.total, List.map_cons, List.sum_cons, hweight]
        exact Nat.le_add_right _ _
      · exact ih (exact.tail hbytes) size hrest
    · exact fun _ h => nomatch h

section Lists

variable {order : List Digest256} {cache : Table Digest256 Bytes} {total : Nat}

/-- An exact order is one of the keys. -/
theorem perm_keys_of_exact (exact : Fifo.Exact List.length order cache total) : order.Perm cache.keys := by
  refine (List.perm_ext_iff_of_nodup exact.nodup Std.ExtTreeMap.nodup_keys).mpr fun digest => ?_
  rw [exact.listed digest, Std.ExtTreeMap.mem_keys, ← Std.ExtTreeMap.contains_iff_mem, Table.contains_iff]

/-- An exact total is that of the cached values. -/
theorem sum_of_exact (exact : Fifo.Exact List.length order cache total) :
    total = (cache.toList.map (·.2.length)).sum := by
  have hvalues : cache.toList.map (·.2.length) = cache.keys.map (Fifo.weightOf List.length cache) := by
    rw [← Std.ExtTreeMap.map_fst_toList_eq_keys, List.map_map]
    refine List.map_congr_left fun entry hentry => ?_
    have hget : cache[entry.1]? = some entry.2 := Std.ExtTreeMap.mem_toList_iff_getElem?_eq_some.mp hentry
    show entry.2.length = Fifo.weightOf List.length cache entry.1
    unfold Fifo.weightOf
    rw [hget]
    rfl
  rw [hvalues, exact.total]
  exact ((perm_keys_of_exact exact).map _).sum_eq

end Lists

section Calls

variable [HashFunction]

-- ---------------------------------------------------------------------------
-- The invariant
-- ---------------------------------------------------------------------------

/-- The cache between two calls. -/
structure Impl.Caching (i : Impl) : Prop where
  vault : i.Vault
  bounded : i.blobCacheBytes ≤ blobCacheLimit

theorem wp_cacheBlob_bounded {i : Impl} (caching : i.Caching) (bytes : Bytes)
    (fresh : i.blobCache[sha256 bytes]? = none) :
    Program.wp (cacheBlob (sha256 bytes) bytes) (fun _ j => j.blobCacheBytes ≤ blobCacheLimit) i := by
  unfold cacheBlob
  split
  · rw [Program.wp_update]
    simp only [evictBlobs_eq]
    have hpush : Fifo.Exact List.length (i.blobCacheOrder ++ [sha256 bytes])
        (i.blobCache.insert (sha256 bytes) bytes) (i.blobCacheBytes + bytes.length) := caching.vault.exact.push fresh
    exact (Fifo.evict_spec hpush).2.1
  · exact caching.bounded

instance : Banked Impl.Caching where
  banked hi hbank := by
    refine ⟨Banked.banked hi.vault hbank, ?_⟩
    have hbytes : _ = _ := congrArg (·.2.2) hbank
    simp only [Impl.bank] at hbytes
    rw [hbytes]
    exact hi.bounded
  deposit bytes hi hfresh := by
    have hvault := Program.wp_mono (wp_cacheBlob hi.vault bytes hfresh) fun _ _ h => h.2.1
    exact Program.wp_mono (Program.wp_and hvault (wp_cacheBlob_bounded hi bytes hfresh)) fun _ _ h => ⟨h.1, h.2⟩

-- ---------------------------------------------------------------------------
-- Calls
-- ---------------------------------------------------------------------------

/-- What calls make of an empty cache, when everything but the cache may change between
two of them: the files of the store, the writes that will fail and the bounds. -/
inductive Impl.Called : Impl → Prop
  | fresh {i : Impl} (empty : i.bank = (∅, [], 0)) : Called i
  | call {i : Impl} (c : BlobCall) (called : Called i) : Called (c.perform i)
  | other {i j : Impl} (called : Called i) (same : j.bank = i.bank) : Called j

theorem Impl.Called.caching {i : Impl} (h : i.Called) : i.Caching := by
  induction h with
  | fresh empty =>
    have hempty : ({} : Impl).Caching := ⟨.empty, Nat.zero_le _⟩
    exact Banked.banked hempty empty
  | call c _ ih =>
    cases c with
    | store bytes => exact Banked.storeBlob bytes _ ih
    | load digest => exact Banked.loadBlob digest _ ih
  | other _ same ih => exact Banked.banked ih same

/-- After any calls the order lists the keys once each, the number of bytes is the
size of the cached values and within the limit, and every value is filed under its
digest. Whatever is cached next, nothing wraps. -/
theorem blob_cache_exact {i : Impl} (h : i.Called) :
    i.blobCacheOrder.Nodup ∧ i.blobCacheOrder.Perm i.blobCache.keys ∧
    i.blobCacheBytes = (i.blobCache.toList.map (·.2.length)).sum ∧
    i.blobCacheBytes ≤ blobCacheLimit ∧
    (∀ (digest : Digest256) (bytes : Bytes), i.blobCache[digest]? = some bytes → sha256 bytes = digest) ∧
    ∀ bytes : Bytes, i.blobCache[sha256 bytes]? = none → bytes.length ≤ blobCacheLimit →
      i.blobCacheBytes + bytes.length < 2 ^ 64 ∧
      ∀ size ∈ evictedSizes (i.blobCacheOrder ++ [sha256 bytes]) (i.blobCache.insert (sha256 bytes) bytes)
        (i.blobCacheBytes + bytes.length), size.2 ≤ size.1 := by
  obtain ⟨vault, bounded⟩ := h.caching
  refine ⟨vault.exact.nodup, perm_keys_of_exact vault.exact, sum_of_exact vault.exact, bounded, vault.genuine,
    fun bytes fresh hfits => ⟨?_, evictedSizes_le (vault.exact.push fresh)⟩⟩
  unfold blobCacheLimit at *
  omega

end Calls

/-- A blob that is stored and loaded again. -/
theorem blob_cache_exact_loaded :
    ((BlobCall.load (sha256 [1])).perform ((BlobCall.store [1]).perform {})).blobCacheOrder.Perm
      ((BlobCall.load (sha256 [1])).perform ((BlobCall.store [1]).perform {})).blobCache.keys :=
  (blob_cache_exact (.call (.load (sha256 [1])) (.call (.store [1]) (.fresh rfl)))).2.1

end DistributedCompilation
