import DistributedCompilation.Safety.Blobs

/-!
# Distributed Compilation — blobs that were stored

Storing and loading blobs, one call after the other. A call can lose a blob that
was stored by pushing it out of the cache when its file does not hold it; no
other call can (`BlobCall.loads_iff`). So a stored blob stays loadable exactly
along the calls that spare it (`stored_blob_loads_iff`).
-/

namespace DistributedCompilation

section

variable [HashFunction]

/-- Calls of `store_blob` and `load_blob`. -/
inductive BlobCall where
  | store (bytes : Bytes)
  | load (digest : Digest256)

/-- The state after a call. -/
def BlobCall.perform (i : Impl) : BlobCall → Impl
  | .store bytes => ((storeBlob bytes).run i).2
  | .load digest => ((loadBlob digest).run i).2

/-- What storing these bytes adds to the cache: they, when they are accepted, new
to it and, where a file has to be written, written. -/
def Impl.takesIn (i : Impl) (bytes : Bytes) : Option Bytes :=
  if bytes.length ≤ i.config.maxBlobBytes ∧ ¬i.blobCache.contains (sha256 bytes) ∧
      (i.config.enablePersistence ∧ ¬i.store.blobs.contains (sha256 bytes) → i.io.headD true = true) then
    some bytes
  else none

/-- What loading this blob adds to the cache: the content of its file, when the
blob is not cached and the file is accepted. -/
def Impl.readsIn (i : Impl) (digest : Digest256) : Option Bytes :=
  match i.blobCache[digest]?, i.store.blobs[digest]? with
  | none, some bytes =>
    if i.config.enablePersistence ∧ bytes.length ≤ maxSnapshotBytes ∧ sha256 bytes = digest ∧
        bytes.length ≤ i.config.maxBlobBytes then some bytes
    else none
  | _, _ => none

/-- The blob that a call adds to the cache if it fits in there at all. -/
def BlobCall.brings (i : Impl) : BlobCall → Option Bytes
  | .store bytes => i.takesIn bytes
  | .load digest => i.readsIn digest

/-- The cached blobs once one more is added. -/
def Impl.cachedWith (i : Impl) (bytes : Bytes) (digest : Digest256) : Option Bytes :=
  if bytes.length ≤ blobCacheLimit then
    if digest = sha256 bytes then some bytes
    else if i.weightFrom digest + bytes.length ≤ blobCacheLimit then i.blobCache[digest]? else none
  else i.blobCache[digest]?

/-- The cached blobs once a call has brought what it brings. -/
def Impl.cachedAfter (i : Impl) (brought : Option Bytes) (digest : Digest256) : Option Bytes :=
  match brought with
  | none => i.blobCache[digest]?
  | some bytes => i.cachedWith bytes digest

/-- What a call does to the cache and to the files. -/
structure BlobCall.Brought (i : Impl) (call : BlobCall) (j : Impl) : Prop where
  vault : j.Vault
  config : j.config = i.config
  files : ∀ digest, j.store.blobs[digest]? = i.store.blobs[digest]? ∨
    i.store.blobs[digest]? = none ∧ ∃ bytes, call = .store bytes ∧ sha256 bytes = digest
  cache : ∀ digest, j.blobCache[digest]? = i.cachedAfter (call.brings i) digest

/-- The end of `store_blob`: the blob is cached when it was stored and is new. -/
theorem wp_cacheStored {i j : Impl} (vault : j.Vault) (bank : j.bank = i.bank) (bytes : Bytes)
    (stored : Result Unit) :
    Program.wp (do
      if stored.isOk ∧ ¬i.blobCache.contains (sha256 bytes) then cacheBlob (sha256 bytes) bytes
      pure stored : M (Result Unit)) (fun r k => r = .ok stored ∧ k.Vault ∧ k.config = j.config ∧
        k.store = j.store ∧ ∀ digest, k.blobCache[digest]? =
          i.cachedAfter (if stored.isOk ∧ ¬i.blobCache.contains (sha256 bytes) then some bytes else none)
            digest) j := by
  have hcache : j.blobCache = i.blobCache := congrArg (·.1) bank
  have horder : j.blobCacheOrder = i.blobCacheOrder := congrArg (·.2.1) bank
  split
  · next h =>
    have hfresh : j.blobCache[sha256 bytes]? = none := by
      rw [hcache]
      exact Table.contains_eq_false.mp (Bool.eq_false_iff.mpr h.2)
    refine Program.wp_seq _ (wp_cacheBlob vault bytes hfresh) ?_ fun _ _ h => nomatch h.1
    rintro ⟨⟩ k ⟨-, hvault, hstore, hconfig, hall⟩
    refine ⟨rfl, hvault, hconfig, hstore, fun digest => (hall digest).trans ?_⟩
    unfold Impl.cachedAfter Impl.cachedWith Impl.weightFrom
    rw [hcache, horder]
  · exact ⟨rfl, vault, rfl, rfl, fun digest => congrArg (·[digest]?) hcache⟩

/-- What `store_blob` returns and leaves. -/
structure Impl.Stores (i : Impl) (bytes : Bytes) (r : Except Fault (Result Unit)) (j : Impl) : Prop where
  brought : BlobCall.Brought i (.store bytes) j
  accepted : r = .ok (.ok ()) → bytes.length ≤ i.config.maxBlobBytes
  written : r = .ok (.ok ()) → i.config.enablePersistence ∧ ¬i.store.blobs.contains (sha256 bytes) →
    i.io.headD true = true
  file : r = .ok (.ok ()) → j.store.blobs[sha256 bytes]? =
    if i.config.enablePersistence then some ((i.store.blobs[sha256 bytes]?).getD bytes)
    else i.store.blobs[sha256 bytes]?

theorem wp_storeBlob {i : Impl} (vault : i.Vault) (bytes : Bytes) :
    Program.wp (storeBlob bytes) (i.Stores bytes) i := by
  unfold storeBlob
  rw [Program.wp_read_bind]
  dsimp only
  split
  · next hlarge =>
    have hnone : BlobCall.brings i (.store bytes) = none := if_neg fun h => absurd h.1 (by omega)
    exact ⟨⟨vault, rfl, fun _ => .inl rfl, fun _ => by rw [hnone]; rfl⟩, nofun, nofun, nofun⟩
  · next hsmall =>
    have hsize : bytes.length ≤ i.config.maxBlobBytes := Nat.le_of_not_lt hsmall
    split
    · next hwrite =>
      have habsent : i.store.blobs[sha256 bytes]? = none :=
        Table.contains_eq_false.mp (Bool.eq_false_iff.mpr hwrite.2)
      refine Program.wp_seq (fun r j => r = .ok (i.io.headD true) ∧ j = { i with io := i.io.tail })
        ⟨rfl, rfl⟩ ?_ fun _ _ h => nomatch h.1
      rintro written j ⟨hwritten, rfl⟩
      obtain rfl := Except.ok.inj hwritten
      split
      · next hio =>
        have hvault' : Impl.Vault { i with io := i.io.tail, store :=
            { i.store with blobs := i.store.blobs.insert (sha256 bytes) bytes } } := Banked.banked vault rfl
        refine (Program.wp_mono (wp_cacheStored (i := i) hvault' rfl bytes (.ok ())) ?_ : Program.wp _ (i.Stores bytes) _)
        rintro r k ⟨rfl, hvault, hconfig, hstore, hall⟩
        refine ⟨⟨hvault, hconfig, fun digest => ?_, fun digest => ?_⟩, fun _ => hsize, fun _ _ => hio, fun _ => ?_⟩
        · rw [hstore, Table.get_insert]
          split
          · next heq => exact .inr ⟨heq ▸ habsent, bytes, rfl, heq⟩
          · exact .inl rfl
        · rw [hall digest]
          unfold BlobCall.brings Impl.takesIn
          congr 2
          exact propext ⟨fun h => ⟨hsize, h.2, fun _ => hio⟩, fun h => ⟨rfl, h.2.1⟩⟩
        · rw [hstore, Table.get_insert, if_pos rfl, if_pos hwrite.1, habsent]
          rfl
      · next hio =>
        refine (Program.wp_mono (wp_cacheStored (i := i) (j := { i with io := i.io.tail })
          (Banked.banked vault rfl) rfl bytes (failure .ioError (txt "cannot create temp file"))) ?_ :
            Program.wp _ _ _)
        rintro r k ⟨rfl, hvault, hconfig, hstore, hall⟩
        refine ⟨⟨hvault, hconfig, fun digest => .inl (by rw [hstore]), fun digest => ?_⟩, nofun, nofun, nofun⟩
        have hkept : i.takesIn bytes = none := if_neg fun h => hio (h.2.2 hwrite)
        rw [hall digest, if_neg (fun h => nomatch h.1), BlobCall.brings, hkept]
    · next hnowrite =>
      refine (Program.wp_mono (wp_cacheStored (i := i) vault rfl bytes (.ok ())) ?_ : Program.wp _ (i.Stores bytes) _)
      rintro r k ⟨rfl, hvault, hconfig, hstore, hall⟩
      refine ⟨⟨hvault, hconfig, fun digest => .inl (by rw [hstore]), fun digest => ?_⟩,
        fun _ => hsize, fun _ h => absurd h hnowrite, fun _ => ?_⟩
      · rw [hall digest]
        unfold BlobCall.brings Impl.takesIn
        congr 2
        exact propext ⟨fun h => ⟨hsize, h.2, fun h' => absurd h' hnowrite⟩, fun h => ⟨rfl, h.2.1⟩⟩
      · rw [hstore]
        split
        · next hpersistent =>
          have hthere : i.store.blobs.contains (sha256 bytes) = true := by
            by_contra hnot
            exact hnowrite ⟨hpersistent, hnot⟩
          obtain ⟨content, hcontent⟩ := Table.contains_iff.mp hthere
          rw [hcontent]
          rfl
        · rfl

/-- A run of `load_blob`: what it leaves. -/
theorem wp_loadBlob {i : Impl} (vault : i.Vault) (digest : Digest256) :
    Program.wp (loadBlob digest) (fun _ j => BlobCall.Brought i (.load digest) j) i := by
  have unchanged (hnone : i.readsIn digest = none) : BlobCall.Brought i (.load digest) i :=
    ⟨vault, rfl, fun _ => .inl rfl, fun _ => by rw [BlobCall.brings, hnone]; rfl⟩
  unfold loadBlob
  rw [Program.wp_read_bind]
  split
  · next copy hcopy => exact unchanged (by unfold Impl.readsIn; rw [hcopy])
  · next hnone =>
    split
    · next hpersistent =>
      split
      · next hfile => exact unchanged (by unfold Impl.readsIn; rw [hnone, hfile])
      · next content hfile =>
        have refused (h : ¬(i.config.enablePersistence ∧ content.length ≤ maxSnapshotBytes ∧
            sha256 content = digest ∧ content.length ≤ i.config.maxBlobBytes)) :
            i.readsIn digest = none := by
          unfold Impl.readsIn
          rw [hnone, hfile]
          exact if_neg h
        split
        · exact unchanged (refused fun h => by omega)
        · split
          · next hforged => exact unchanged (refused fun h => hforged h.2.2.1)
          · next hgenuine =>
            split
            · exact unchanged (refused fun h => by omega)
            · obtain rfl := not_not.mp hgenuine
              have hbrings : i.readsIn (sha256 content) = some content := by
                unfold Impl.readsIn
                rw [hnone, hfile]
                exact if_pos ⟨hpersistent, by omega, rfl, by omega⟩
              refine Program.wp_seq _ (wp_cacheBlob vault content hnone) ?_ fun _ _ h => nomatch h.1
              rintro ⟨⟩ k ⟨-, hvault, hstore, hconfig, hall⟩
              refine ⟨hvault, hconfig, fun other => .inl (congrArg (·.blobs[other]?) hstore), fun other => ?_⟩
              rw [BlobCall.brings, hbrings]
              exact hall other
    · next hvolatile =>
      refine unchanged ?_
      unfold Impl.readsIn
      rw [hnone]
      split
      · exact if_neg fun h => hvolatile h.1
      · rfl

/-- Whatever a call does, it is this. -/
theorem BlobCall.brought {i : Impl} (vault : i.Vault) (call : BlobCall) : call.Brought i (call.perform i) := by
  cases call with
  | store bytes => exact (wp_storeBlob vault bytes).brought
  | load digest => exact wp_loadBlob vault digest

-- ---------------------------------------------------------------------------
-- Blobs that stay
-- ---------------------------------------------------------------------------

/-- A call that spares the blob: what it adds to the cache is the blob itself or
leaves room for it, or the blob has its file. -/
def BlobCall.Spares (i : Impl) (bytes : Bytes) (call : BlobCall) : Prop :=
  ∀ added : Bytes, call.brings i = some added → added.length ≤ blobCacheLimit →
    if sha256 added = sha256 bytes then added = bytes
    else i.Intact (sha256 bytes) bytes ∨ i.weightFrom (sha256 bytes) + added.length ≤ blobCacheLimit

theorem Impl.of_takesIn {i : Impl} {bytes added : Bytes} (h : i.takesIn bytes = some added) :
    bytes = added := by
  unfold Impl.takesIn at h
  split at h
  · exact Option.some.inj h
  · cases h

/-- What a load needs is kept by a call that leaves the cached copy alone. -/
theorem BlobCall.loads_of_kept {i : Impl} {call : BlobCall} {bytes : Bytes} {j : Impl}
    (brought : call.Brought i j) (loads : i.Loads (sha256 bytes) bytes)
    (kept : j.blobCache[sha256 bytes]? = i.blobCache[sha256 bytes]? ∨ i.Intact (sha256 bytes) bytes ∧
      j.blobCache[sha256 bytes]? = none) : j.Loads (sha256 bytes) bytes := by
  have intact (h : i.Intact (sha256 bytes) bytes) : j.Intact (sha256 bytes) bytes := by
    have hfile : j.store.blobs[sha256 bytes]? = some bytes := by
      rcases brought.files (sha256 bytes) with hsame | ⟨hnone, -⟩
      · rw [hsame, h.file]
      · rw [h.file] at hnone
        cases hnone
    exact ⟨brought.config ▸ h.persistent, hfile, h.readable, h.genuine, brought.config ▸ h.bounded⟩
  rw [loads_iff] at loads ⊢
  rcases kept with hsame | ⟨hintact, hnone⟩
  · rw [hsame]
    rcases loads with hcopy | ⟨hnone, hintact⟩
    · exact .inl hcopy
    · exact .inr ⟨hnone, intact hintact⟩
  · exact .inr ⟨hnone, intact hintact⟩

/-- A loadable blob stays loadable over exactly the calls that spare it. -/
theorem BlobCall.loads_perform_iff {i : Impl} (vault : i.Vault) (call : BlobCall) {bytes : Bytes}
    (loads : i.Loads (sha256 bytes) bytes) :
    (call.perform i).Loads (sha256 bytes) bytes ↔ call.Spares i bytes := by
  have hbrought := call.brought vault
  have hcache := hbrought.cache (sha256 bytes)
  unfold BlobCall.Spares
  cases hadded : call.brings i with
  | none =>
    rw [hadded] at hcache
    exact ⟨fun _ _ h => (nomatch h), fun _ => loads_of_kept hbrought loads (.inl hcache)⟩
  | some added =>
    rw [hadded] at hcache
    simp only [Impl.cachedAfter, Impl.cachedWith] at hcache
    by_cases hfits : added.length ≤ blobCacheLimit
    · rw [if_pos hfits] at hcache
      by_cases hself : sha256 added = sha256 bytes
      · rw [if_pos hself.symm] at hcache
        rw [loads_iff, hcache]
        constructor
        · intro h other hother _
          obtain rfl := Option.some.inj hother
          rw [if_pos hself]
          rcases h with h | ⟨h, -⟩
          · exact Option.some.inj h
          · cases h
        · intro h
          have hspare := h added rfl hfits
          rw [if_pos hself] at hspare
          exact .inl (congrArg some hspare)
      · rw [if_neg fun h => hself h.symm] at hcache
        constructor
        · intro h other hother _
          obtain rfl := Option.some.inj hother
          rw [if_neg hself]
          by_contra hno
          rw [not_or] at hno
          rw [if_neg hno.2] at hcache
          rw [loads_iff, hcache] at h
          rcases h with h | ⟨-, hintact⟩
          · cases h
          · refine hno.1 ⟨hbrought.config ▸ hintact.persistent, ?_, hintact.readable, hintact.genuine,
              hbrought.config ▸ hintact.bounded⟩
            rcases hbrought.files (sha256 bytes) with hsame | ⟨-, stored, hcall, hstored⟩
            · rw [← hsame, hintact.file]
            · subst hcall
              exact absurd (Impl.of_takesIn hadded ▸ hstored) hself
        · intro h
          have hspare := h added rfl hfits
          rw [if_neg hself] at hspare
          refine loads_of_kept hbrought loads ?_
          by_cases hroom : i.weightFrom (sha256 bytes) + added.length ≤ blobCacheLimit
          · rw [if_pos hroom] at hcache
            exact .inl hcache
          · rw [if_neg hroom] at hcache
            exact .inr ⟨hspare.resolve_right hroom, hcache⟩
    · rw [if_neg hfits] at hcache
      refine ⟨fun _ other hother hle => ?_, fun _ => loads_of_kept hbrought loads (.inl hcache)⟩
      obtain rfl := Option.some.inj hother
      exact absurd hle hfits

/-- Every call of the list spares the blob when its turn comes. -/
def Impl.Spared (i : Impl) (bytes : Bytes) : List BlobCall → Prop
  | [] => True
  | call :: calls => call.Spares i bytes ∧ (call.perform i).Spared bytes calls

/-- The state after a list of calls. -/
def Impl.performed (i : Impl) (calls : List BlobCall) : Impl := calls.foldl BlobCall.perform i

/-- Over a list of calls: the blob can be loaded in every state on the way exactly
when every call spares it. -/
theorem loads_along_iff {i : Impl} (vault : i.Vault) {bytes : Bytes} (loads : i.Loads (sha256 bytes) bytes)
    (calls : List BlobCall) :
    (∀ earlier, earlier <+: calls → (i.performed earlier).Loads (sha256 bytes) bytes) ↔
      i.Spared bytes calls := by
  induction calls generalizing i with
  | nil =>
    refine ⟨fun _ => trivial, fun _ earlier hearlier => ?_⟩
    rw [List.prefix_nil.mp hearlier]
    exact loads
  | cons call calls ih =>
    have hvault : (call.perform i).Vault := (call.brought vault).vault
    constructor
    · intro h
      have hnext : (call.perform i).Loads (sha256 bytes) bytes :=
        h [call] ⟨calls, rfl⟩
      refine ⟨(call.loads_perform_iff vault loads).mp hnext, (ih hvault hnext).mp fun earlier hearlier => ?_⟩
      exact h (call :: earlier) (List.cons_prefix_cons.mpr ⟨rfl, hearlier⟩)
    · rintro ⟨hspares, hrest⟩ earlier hearlier
      have hnext := (call.loads_perform_iff vault loads).mpr hspares
      cases earlier with
      | nil => exact loads
      | cons first earlier =>
        obtain ⟨rfl, htail⟩ := List.cons_prefix_cons.mp hearlier
        exact (ih hvault hnext).mpr hrest earlier htail

/-- A blob that can be loaded right after it has been stored: it was cached
already, or fits into the cache, or its file is new or holds it and can be read. -/
def Impl.Keepable (i : Impl) (bytes : Bytes) : Prop :=
  match i.blobCache[sha256 bytes]? with
  | some copy => copy = bytes
  | none => bytes.length ≤ blobCacheLimit ∨ i.config.enablePersistence = true ∧
      bytes.length ≤ maxSnapshotBytes ∧
      ∀ content : Bytes, i.store.blobs[sha256 bytes]? = some content → content = bytes

/-- After a successful `store_blob`. -/
theorem loads_stored_iff {i : Impl} (vault : i.Vault) {bytes : Bytes}
    (stored : ((storeBlob bytes).run i).1 = .ok (.ok ())) :
    ((storeBlob bytes).run i).2.Loads (sha256 bytes) bytes ↔ i.Keepable bytes := by
  obtain ⟨hbrought, haccepted, hwritten, hfile⟩ := (wp_storeBlob vault bytes : i.Stores bytes _ _)
  have hcache := hbrought.cache (sha256 bytes)
  have hbrings : BlobCall.brings i (.store bytes) =
      if i.blobCache.contains (sha256 bytes) then none else some bytes := by
    show i.takesIn bytes = _
    unfold Impl.takesIn
    by_cases hcached : i.blobCache.contains (sha256 bytes) = true
    · rw [if_pos hcached, if_neg fun h => h.2.1 hcached]
    · rw [if_neg hcached, if_pos ⟨haccepted stored, hcached, hwritten stored⟩]
  rw [hbrings] at hcache
  unfold Impl.Keepable
  rw [loads_iff]
  cases hcopy : i.blobCache[sha256 bytes]? with
  | some copy =>
    rw [if_pos (Table.contains_iff.mpr ⟨copy, hcopy⟩)] at hcache
    have hsame : ((storeBlob bytes).run i).2.blobCache[sha256 bytes]? = some copy := hcache.trans hcopy
    rw [hsame]
    constructor
    · rintro (h | ⟨h, -⟩)
      · exact Option.some.inj h
      · cases h
    · exact fun h => .inl (congrArg some h)
  | none =>
    rw [if_neg (by rw [Table.contains_eq_false.mpr hcopy]; exact Bool.false_ne_true)] at hcache
    simp only [Impl.cachedAfter, Impl.cachedWith, if_pos, hcopy] at hcache
    by_cases hfits : bytes.length ≤ blobCacheLimit
    · rw [if_pos hfits] at hcache
      exact ⟨fun _ => .inl hfits, fun _ => .inl hcache⟩
    · rw [if_neg hfits] at hcache
      rw [hcache]
      constructor
      · rintro (h | ⟨-, hintact⟩)
        · cases h
        · refine .inr ⟨hbrought.config ▸ hintact.persistent, hintact.readable, fun content hcontent => ?_⟩
          have hkept := hfile stored
          rw [hintact.file, if_pos (hbrought.config ▸ hintact.persistent), hcontent] at hkept
          exact (Option.some.inj hkept).symm
      · rintro (h | ⟨hpersistent, hreadable, hcontent⟩)
        · exact absurd h hfits
        · refine .inr ⟨rfl, hbrought.config ▸ hpersistent, ?_, hreadable, rfl,
            hbrought.config ▸ haccepted stored⟩
          rw [hfile stored, if_pos hpersistent]
          cases hthere : i.store.blobs[sha256 bytes]? with
          | none => rfl
          | some content => rw [hcontent content hthere]; rfl

/-- In a system that a run reaches: a blob that was stored can be loaded from then
on, whatever is stored and loaded, exactly when it could be kept at all and every
later call spares it. -/
theorem stored_blob_loads_iff {sys : System} (visited : System.Visited sys) (environment : Environment)
    (bytes : Bytes) (stored : ((storeBlob bytes).run (System.given environment sys.impl)).1 = .ok (.ok ()))
    (calls : List BlobCall) :
    (∀ earlier, earlier <+: calls →
      ((BlobCall.perform (System.given environment sys.impl) (.store bytes)).performed earlier).Loads
        (sha256 bytes) bytes) ↔
      (System.given environment sys.impl).Keepable bytes ∧
        (BlobCall.perform (System.given environment sys.impl) (.store bytes)).Spared bytes calls := by
  have hvault : (System.given environment sys.impl).Vault := Banked.banked visited.vault rfl
  have hafter := (BlobCall.brought hvault (.store bytes)).vault
  constructor
  · intro h
    have hnow := h [] (List.nil_prefix)
    exact ⟨(loads_stored_iff hvault stored).mp hnow, (loads_along_iff hafter hnow calls).mp h⟩
  · rintro ⟨hkeepable, hspared⟩
    exact (loads_along_iff hafter ((loads_stored_iff hvault stored).mpr hkeepable) calls).mpr hspared

/-- Without a state directory everything within the bound is accepted. -/
theorem stored_of_volatile {i : Impl} (volatile : i.config.enablePersistence = false) {bytes : Bytes}
    (bounded : bytes.length ≤ i.config.maxBlobBytes) : ((storeBlob bytes).run i).1 = .ok (.ok ()) := by
  have hrun : Program.wp (storeBlob bytes) (fun r _ => r = .ok (.ok ())) i := by
    unfold storeBlob cacheBlob
    rw [Program.wp_read_bind]
    dsimp only
    rw [if_neg (by omega), if_neg fun h => by rw [volatile] at h; exact Bool.false_ne_true h.1,
      Program.wp_pure_bind]
    split
    · split
      · exact rfl
      · exact rfl
    · exact rfl
  exact hrun

end

section Volatile

theorem volatileFirst_visited : System.Visited volatileFirst := .step _ _ .fresh

theorem volatileFirst_config : (System.given {} volatileFirst.impl).config.enablePersistence = false ∧
    (System.given {} volatileFirst.impl).config.maxBlobBytes = 134217728 ∧
    (System.given {} volatileFirst.impl).blobCacheOrder = [] := by decide +kernel

/-- Without a state directory a cache that nothing has entered is empty. -/
theorem volatileFirst_cache (digest : Digest256) :
    (System.given {} volatileFirst.impl).blobCache[digest]? = none := by
  have hvault : (System.given {} volatileFirst.impl).Vault := Banked.banked volatileFirst_visited.vault rfl
  have hlisted := hvault.exact.listed digest
  rw [volatileFirst_config.2.2] at hlisted
  exact Option.eq_none_iff_forall_ne_some.mpr fun copy hcopy => (nomatch hlisted.mpr ⟨copy, hcopy⟩)

theorem stored_blob_loads_twice :
    ((BlobCall.perform (System.given {} volatileFirst.impl) (.store [1])).performed [.store [1]]).Loads
      (sha256 [1]) [1] := by
  obtain ⟨hvolatile, hmax, -⟩ := volatileFirst_config
  have hstored : ((storeBlob [1]).run (System.given {} volatileFirst.impl)).1 = .ok (.ok ()) :=
    stored_of_volatile hvolatile (by rw [hmax]; decide)
  have hkeepable : (System.given {} volatileFirst.impl).Keepable [1] := by
    unfold Impl.Keepable
    rw [volatileFirst_cache]
    exact .inl (by decide)
  refine (stored_blob_loads_iff volatileFirst_visited {} [1] hstored [.store [1]]).mpr ⟨hkeepable, ?_, trivial⟩ _
    (List.prefix_refl _)
  intro added hadded _
  obtain rfl := Impl.of_takesIn hadded
  rw [if_pos rfl]

/-- A blob of 64 MiB and a byte is accepted without a state directory and cannot be
loaded. -/
theorem stored_blob_lost : ∃ (sys : System) (bytes : Bytes), System.Visited sys ∧
    ((storeBlob bytes).run (System.given {} sys.impl)).1 = .ok (.ok ()) ∧
    ¬((storeBlob bytes).run (System.given {} sys.impl)).2.Loads (sha256 bytes) bytes := by
  obtain ⟨hvolatile, hmax, -⟩ := volatileFirst_config
  have hlength : (List.replicate 67108865 0 : Bytes).length = 67108865 := List.length_replicate
  have hbounded : (List.replicate 67108865 0 : Bytes).length ≤
      (System.given {} volatileFirst.impl).config.maxBlobBytes := by
    rw [hmax, hlength]
    omega
  have hstored := stored_of_volatile hvolatile hbounded
  refine ⟨volatileFirst, List.replicate 67108865 0, volatileFirst_visited, hstored, fun hloads => ?_⟩
  have hkeepable : (System.given {} volatileFirst.impl).Keepable (List.replicate 67108865 0) :=
    (loads_stored_iff (Banked.banked volatileFirst_visited.vault rfl) hstored).mp hloads
  unfold Impl.Keepable at hkeepable
  rw [volatileFirst_cache] at hkeepable
  rcases hkeepable with hfits | ⟨hpersistent, -⟩
  · rw [hlength] at hfits
    unfold blobCacheLimit at hfits
    omega
  · rw [hvolatile] at hpersistent
    exact Bool.false_ne_true hpersistent

end Volatile

end DistributedCompilation
